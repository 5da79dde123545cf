import Parley.Proofs.Turn.Finish

/-!
# The history and the whole record

A turn records each node that it attempts once, whichever way it leaves the node: the node ran to
its outcome, it was cut short, or the turn was cancelled before it was run (`Stop.visit`).  Only
where the turn was abandoned is there nothing to record, since such a turn has no result either
(`Episode.attempts`).  The `logbook` of a session is the record of all its turns, of which nothing
is ever dropped.

The session itself drops its oldest visit whenever another one is too many.  Dropped one by one or
all at once comes to the same (`Session.lastOf_append`), so the history is the end of the logbook
(`history_is_end_of_logbook`).
-/

namespace Parley.Session

variable {α : Type} {limit : Int}

/-- What was dropped before more items came would have been dropped after. -/
theorem lastOf_append (limit : Int) (items more : List α) :
    lastOf limit (lastOf limit items ++ more) = lastOf limit (items ++ more) := by
  unfold lastOf
  split
  · have hle : items.length - limit.toNat ≤ items.length := Nat.sub_le ..
    rw [← List.drop_append_of_le_length hle, List.drop_drop, List.length_drop, List.length_append]
    congr 1
    omega
  · rfl

theorem lastOf_of_nonpos (h : limit ≤ 0) (items : List α) : lastOf limit items = items :=
  if_neg (Int.not_lt.mpr h)

theorem lastOf_suffix (limit : Int) (items : List α) : lastOf limit items <:+ items := by
  unfold lastOf
  split
  · exact List.drop_suffix _ _
  · exact List.suffix_refl _

theorem length_lastOf (h : 0 < limit) (items : List α) :
    (lastOf limit items).length = min limit.toNat items.length := by
  rw [lastOf, if_pos h, List.length_drop]
  omega

theorem history_record {s : Session} {past : List Visit} (h : s.history = lastOf limit past)
    (v : Visit) :
    (s.record limit v).history = lastOf limit (past ++ [v]) := by
  rw [record, h, lastOf_append]

end Parley.Session

namespace Parley.Turn

open Session (Visit lastOf)

/-! ### The record of a turn -/

/-- What a visit is called for what became of the node. -/
def Fate.action : Fate → String
  | .over (.done e) =>
    match e.course with
    | .wait => "waiting"
    | .handoff _ => "handoff"
    | .proceed _ | .finish => "executed"
  | .over (.failed _) => "failed"
  | .spared | .cut _ => "aborted"

/-- The visit that a stop is recorded as. -/
def Stop.visit (now : Calendar.Moment) (st : Stop) :
    Visit := ⟨st.node.id, st.node.kind, st.fate.action, now⟩

/-- The stops at which the turn attempted a node: all of them, but for the one where it was
abandoned. -/
def Episode.attempts (e : Episode) : List Stop :=
  match e.ending with
  | .finished _ _ => e.stops
  | .abandoned _ => e.stops.dropLast

/-- A turn, taken at a moment. -/
structure Outing extends Episode where
  now : Calendar.Moment

/-- The record of a turn. -/
def Outing.visits (o : Outing) : List Visit := o.attempts.map (Stop.visit o.now)

/-- The record of all turns. -/
def logbook (outings : List Outing) : List Visit := outings.flatMap Outing.visits

variable {f : Frame} {w : Walk} {n : Flow.Node} {stops : List Stop} {e : Ending} {past : List Visit}

theorem actionOf_course (e : Step.Effect) :
    Frame.actionOf e.course = (Fate.over (.done e)).action := by
  obtain ⟨output, course, changes, metadata⟩ := e
  cases course <;> rfl

theorem attempts_nil (e : Ending) : (Episode.mk [] e).attempts = [] := by
  cases e <;> rfl

/-- A turn that went on attempted the node that it went on from. -/
theorem attempts_cons {left : Nat} {resumed : Bool} {answer : Option String}
    (h : Goes f left w n resumed answer stops e) (st : Stop) :
    (Episode.mk (st :: stops) e).attempts = st :: (Episode.mk stops e).attempts := by
  cases e with
  | finished s r => rfl
  | abandoned s => exact List.dropLast_cons_of_ne_nil h.ne_nil_of_abandoned

/-! ### One turn -/

/-- The session is left with the end of the record, to which one visit was added. -/
theorem history_of_settles {o : Step.Outcome} {next : Ending ⊕ (Walk × Flow.Node)} (st : Stop)
    (hn : st.node = n) (ho : st.fate = .over o) (hs : Settles f w n o next)
    (hw : w.session.history = lastOf f.policy.historyLimit past) :
    (next.elim Ending.session fun on => on.1.session).history =
      lastOf f.policy.historyLimit (past ++ [st.visit f.now]) := by
  subst hn
  have hvisit (action : String) (ha : st.fate.action = action) :
      (f.record w.session st.node action).history =
        lastOf f.policy.historyLimit (past ++ [st.visit f.now]) := by
    rw [Stop.visit, ha]
    exact Session.history_record hw _
  cases hs with
  | failed error => exact hvisit "failed" (congrArg Fate.action ho)
  | @waits e | @handsOff e | @completes e | @strays e | @proceeds e =>
      exact hvisit (Frame.actionOf e.course)
        ((congrArg Fate.action ho).trans (actionOf_course e).symm)

/-- **From a node on** a session that holds the end of a record is left with the end of it after the
visits of the turn were added, by induction on the way of its tour. -/
theorem history_of_goes {left : Nat} {resumed : Bool} {answer : Option String}
    (h : Goes f left w n resumed answer stops e)
    (hw : w.session.history = lastOf f.policy.historyLimit past) :
    e.session.history = lastOf f.policy.historyLimit
      (past ++ (Episode.mk stops e).attempts.map (Stop.visit f.now)) := by
  induction h generalizing past with
  | exhausted =>
      rw [attempts_nil, List.map_nil, List.append_nil]
      exact hw
  | spared => exact Session.history_record hw _
  | deserted => exact hw.trans (congrArg _ (List.append_nil past).symm)
  | @cut _ w n resumed answer i =>
      cases i with
      -- the node was reached, but the turn has neither a result nor a visit of it
      | abandoned => exact hw.trans (congrArg _ (List.append_nil past).symm)
      | deadline | cancelled => exact Session.history_record hw _
  | @ended _ w n resumed answer r e _ hs =>
      have hend := history_of_settles ⟨n, resumed, w.session, answer, .over r⟩ rfl rfl hs hw
      cases hs <;> exact hend
  | @onward _ w n resumed answer r _ _ _ _ _ hs t ih =>
      rw [attempts_cons t, List.map_cons, List.append_cons]
      exact ih (history_of_settles ⟨n, resumed, w.session, answer, .over r⟩ rfl rfl hs hw)

variable {now : Calendar.Moment} {s s' : Session} {message : Option String}

theorem history_begun : (begun now s message).history = s.history := by
  rw [begun_eq]
  rfl

theorem Enters.history {flow : Flow} {answer given : Option String}
    (h : Enters flow s answer n given s') :
    s'.history = s.history := by
  cases h <;> rfl

/-- **A turn** of a session that holds the end of a record leaves it with the end of it after the
visits of the turn were added. -/
theorem history_of_ends {setting : Step.Setting} {timeout : Option Binary64}
    (h : (tour setting now s message timeout).Ends (stops, e))
    (hs : s.history = lastOf setting.policy.historyLimit past) :
    e.session.history = lastOf setting.policy.historyLimit
      (past ++ Outing.visits ⟨⟨stops, e⟩, now⟩) := by
  obtain ⟨start, h⟩ := Program.ends_request_iff.mp h
  have hbegun : (begun now s message).history = lastOf setting.policy.historyLimit past :=
    history_begun.trans hs
  dsimp only at h
  split at h
  · cases Program.ends_done_iff.mp h
    rw [Outing.visits, attempts_nil, List.map_nil, List.append_nil]
    exact hs
  · split at h
    · cases Program.ends_done_iff.mp h
      rw [Outing.visits, attempts_nil, List.map_nil, List.append_nil]
      exact hbegun
    · next he => exact history_of_goes (goes_of_ends h) ((enters_of_entry he).history.trans hbegun)

/-! ### All the turns of a session -/

/-- The turns that a session takes under one limit of its history, in order, and the session as it
is after them.  Each turn has a setting of its own, and between two of them anything but the history
may be changed. -/
inductive Outings (limit : Int) (first : Session) : List Outing → Session → Prop where
  | opening : Outings limit first [] first
  | turn {past : List Outing} {s : Session} {stops : List Stop} {e : Ending}
      (h : Outings limit first past s)
      (setting : Step.Setting) (hl : setting.policy.historyLimit = limit) (now : Calendar.Moment)
      (message : Option String) (timeout : Option Binary64)
      (t : (tour setting now s message timeout).Ends (stops, e)) :
      Outings limit first (past ++ [⟨⟨stops, e⟩, now⟩]) e.session
  | meanwhile {past : List Outing} {s s' : Session} (h : Outings limit first past s)
      (hs : s'.history = s.history) : Outings limit first past s'

/-- A session that began without a history holds the end of its logbook. -/
theorem Outings.history {limit : Int} {first : Session} {outings : List Outing}
    (hfirst : first.history = []) (h : Outings limit first outings s) :
    s.history = lastOf limit (logbook outings) := by
  induction h with
  | opening =>
      change first.history = lastOf limit []
      rw [hfirst, lastOf, List.drop_nil, ite_self]
  | turn _ setting hl now message timeout t ih =>
      subst hl
      rw [logbook, List.flatMap_append, List.flatMap_singleton]
      exact history_of_ends t ih
  | meanwhile _ hs ih => exact hs.trans ih

/-- **The history is the end of the logbook.**  A session begins without a history and takes turns
under one limit, whatever they are told, whatever the collaborators answer, whenever turns are
interrupted or abandoned, and whatever else is changed between them.  The logbook has one entry for
each node that a turn attempted, in order: its id and kind, and the action that goes with its
outcome, or with its interruption, also with one that came before it was run.  Only a node at which
its turn was abandoned has none.  Without a positive limit the history is the whole logbook; with
one it is its last entries, as many as the limit allows. -/
theorem history_is_end_of_logbook {limit : Int} {first : Session} {outings : List Outing}
    (hfirst : first.history = []) (h : Outings limit first outings s) :
    (limit ≤ 0 → s.history = logbook outings) ∧
      (0 < limit → s.history <:+ logbook outings ∧
        s.history.length = min limit.toNat (logbook outings).length) := by
  rw [h.history hfirst]
  exact ⟨fun hl => Session.lastOf_of_nonpos hl _,
    fun hl => ⟨Session.lastOf_suffix limit _, Session.length_lastOf hl _⟩⟩

/-- The greeting, of which a session keeps two visits. -/
def briefSetting : Step.Setting := { greetingSetting with policy := { historyLimit := 2 } }

/-- A turn of it that is interrupted in the pause. -/
def briefHalted : List Stop × Ending :=
  ((tour briefSetting newYear newcomer (some "hi") none).play (cutShort silent 0 .deadline)
    ⟨(), (), 3⟩).1

/-- The next turn, which asks for the name. -/
def briefAsked : List Stop × Ending :=
  ((tour briefSetting newYear briefHalted.2.session none none).play (undisturbed silent 0) ()).1

/-- The turn after that, which is cancelled before the answer is taken. -/
def briefSpared : List Stop × Ending :=
  ((tour briefSetting newYear briefAsked.2.session (some "Ana") none).play
    (cutShort silent 0 .cancelled) ⟨(), (), 0⟩).1

/-- Three turns visit six nodes, of which the session keeps the last two. -/
theorem history_is_end_of_logbook_greeting :
    ∃ outings s, (newcomer.history = [] ∧ Outings 2 newcomer outings s) ∧
      (logbook outings).map (fun v => (v.nodeId, v.nodeKind, v.action)) =
        [("start", "start", "executed"), ("hello", "message", "executed"),
          ("pause", "delay", "aborted"),
          ("pause", "delay", "executed"), ("name", "input", "waiting"),
            ("name", "input", "aborted")] ∧
      s.history <:+ logbook outings ∧ s.history.length = min 2 (logbook outings).length := by
  have h₁ : Outings 2 newcomer [⟨⟨briefHalted.1, briefHalted.2⟩, newYear⟩] briefHalted.2.session :=
    Outings.opening.turn briefSetting rfl newYear (some "hi") none (Program.ends_play _ _ _)
  have h₂ : Outings 2 newcomer [⟨⟨briefHalted.1, briefHalted.2⟩, newYear⟩,
      ⟨⟨briefAsked.1, briefAsked.2⟩, newYear⟩] briefAsked.2.session :=
    h₁.turn briefSetting rfl newYear none none (Program.ends_play _ _ _)
  have h₃ : Outings 2 newcomer [⟨⟨briefHalted.1, briefHalted.2⟩, newYear⟩,
      ⟨⟨briefAsked.1, briefAsked.2⟩, newYear⟩, ⟨⟨briefSpared.1, briefSpared.2⟩, newYear⟩]
      briefSpared.2.session :=
    h₂.turn briefSetting rfl newYear (some "Ana") none (Program.ends_play _ _ _)
  exact ⟨_, _, ⟨rfl, h₃⟩, by decide +kernel, (history_is_end_of_logbook rfl h₃).2 (by decide)⟩

end Parley.Turn
