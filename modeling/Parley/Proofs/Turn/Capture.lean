import Parley.Proofs.Step.Sequence
import Parley.Proofs.Turn.Commit
import Parley.Proofs.Turn.Saving

/-!
# The stay at a lead capture

A session comes to a lead capture that has not begun, and stays there for any number of turns.
`replies` are the replies that the capture has accepted by then, counted over the stops of these
turns: those that came to an effect, each of which accepts the reply that it was handed or does not.

The capture stands where these replies say (`Step.Standing`), after the turn that came to it
(`standing_of_tour`) and, by induction over the stay, after each turn of it (`Dwells.standing`).  So
every step of it is orderly, that of the turn in which the session may leave included
(`lead_captured_in_order`).
-/

namespace Parley.Turn

/-- The replies that a capture has accepted after these stops, if it has begun. -/
def replies (d : Flow.LeadCapture) (p : Option (List String)) (stops : List Stop) :
    Option (List String) :=
  stops.foldl (fun p st => if st.effect?.isSome then Step.progress d st.answer p else p) p

/-- What is to be said of a stop at the capture, where these replies were accepted before. -/
structure Stop.Captures (setting : Step.Setting) (n : Flow.Node) (d : Flow.LeadCapture)
    (p : Option (List String)) (st : Stop) : Prop where
  node : st.node = n
  outcome : ∀ o, st.fate = .over o → (Step.run setting n st.session st.answer).Ends o
  orderly : Step.Orderly setting n d p st.session st.answer

variable {setting : Step.Setting} {n : Flow.Node} {d : Flow.LeadCapture} {s s₁ s₂ : Session}
  {p : Option (List String)} {st : Stop} {stops : List Stop} {e : Ending}

/-! ### What a stop finds and leaves -/

/-- A turn leaves the variables that its last stop found, with what that changed. -/
theorem Goes.vars_last {f : Frame} {left : Nat} {w : Walk} {m : Flow.Node} {resumed : Bool}
    {answer : Option String} (h : Goes f left w m resumed answer stops e)
    (hst : stops.getLast? = some st) :
    e.session.vars = written st.session.vars st.effect?.toList := by
  induction h with
  | exhausted => cases hst
  | spared | deserted =>
      cases hst
      rfl
  | @cut _ _ _ _ _ i =>
      cases hst
      cases i <;> rfl
  | ended w m resumed answer hr hs =>
      cases hst
      cases hs <;> rfl
  | @onward _ w m resumed answer o w' m' rest e hr hs t ih =>
      cases rest with
      | nil =>
          cases hst
          cases t
          cases hs
          rfl
      | cons next rest => exact ih (by rwa [List.getLast?_cons_cons] at hst)

/-- A turn that comes to no node leaves the variables that it began with. -/
theorem Goes.vars_none {f : Frame} {left : Nat} {w : Walk} {m : Flow.Node} {resumed : Bool}
    {answer : Option String} (h : Goes f left w m resumed answer [] e) :
    e.session.vars = w.session.vars := by
  cases h
  rfl

/-- A turn whose only node came to an outcome has a result. -/
theorem Goes.finished {f : Frame} {left : Nat} {w : Walk} {m : Flow.Node} {resumed : Bool}
    {answer : Option String} (h : Goes f left w m resumed answer [st] e) {o : Step.Outcome}
    (hf : st.fate = .over o) : ∃ s r, e = .finished s r := by
  cases h with
  | spared | deserted | cut => cases hf
  | ended _ _ _ _ _ hs => cases hs <;> exact ⟨_, _, rfl⟩
  | onward _ _ _ _ _ _ t =>
      cases t
      exact ⟨_, _, rfl⟩

/-- The message of a turn is none of the variables of a capture. -/
theorem get?_heard {vars : Fields} {message : Option String} {name : String}
    (h : name ∈ Step.captureNames) :
    (heard vars message).get? name = vars.get? name := by
  have hname : "last_user_message" ≠ name := by
    rintro rfl
    exact absurd h (by decide)
  unfold heard
  split
  · rw [Entries.get?_put, if_neg hname]
  · rfl

/-- The turn of a session that waits at a node comes to that node first. -/
theorem Tours.head_of_waitsAt {now : Calendar.Moment} {message : Option String}
    (h : Tours setting now s message stops e) (hw : WaitsAt setting.flow n s)
    (hst : stops.head? = some st) :
    st.node = n ∧ st.session.vars = heard s.vars message := by
  cases h with
  | refused | lost => cases hst
  | underway f _ _ he t =>
      rw [t.head hst]
      have henters := enters_of_entry he
      refine ⟨?_, henters.vars.trans (vars_begun now s message)⟩
      cases henters with
      | again _ hnode =>
          rw [currentNodeId_begun, hw.2] at hnode
          exact (Option.some.inj hnode).symm
      | anew ht =>
          have hnot : takesUp (begun now s message) = takesUp s := by
            unfold takesUp Session.isWaiting
            rw [status_begun, currentNodeId_begun]
          exact absurd (hnot.symm.trans ht) (by rw [hw.1]; decide)

/-- A turn that comes to no node leaves a capture where it stands. -/
theorem Tours.standing_none {now : Calendar.Moment} {message : Option String}
    (h : Tours setting now s message [] e) (hs : Step.Standing d n.id s.vars p) :
    Step.Standing d n.id e.session.vars p := by
  have hheard : Step.Standing d n.id (heard s.vars message) p := hs.congr fun _ hname =>
    get?_heard hname
  cases h with
  | refused => exact hs
  | lost =>
      have hvars : (begun now s message).vars = heard s.vars message := vars_begun now s message
      exact hvars ▸ hheard
  | underway f _ _ he t =>
      rw [t.vars_none]
      exact ((enters_of_entry he).vars.trans (vars_begun now s message)) ▸ hheard

theorem Stop.fate_of_effect {x : Step.Effect} (h : st.effect? = some x) :
    st.fate = .over (.done x) := by
  unfold Stop.effect? at h
  split at h
  · next hf =>
    cases h
    exact hf
  · cases h

/-- The last stop of a turn is one of its way, which may be taken from there. -/
theorem Tours.vars_last {now : Calendar.Moment} {message : Option String}
    (h : Tours setting now s message stops e) (hst : stops.getLast? = some st) :
    e.session.vars = written st.session.vars st.effect?.toList := by
  cases h with
  | refused | lost => cases hst
  | underway f _ _ _ t => exact t.vars_last hst

/-! ### One stop at the capture -/

theorem captures_of_standing (hn : n.block = .leadCapture d) (hd : 0 < d.enabledFields.length)
    {now : Calendar.Moment} {message : Option String} (h : Tours setting now s message stops e)
    (hst : st ∈ stops) (hnode : st.node = n) (hs : Step.Standing d n.id st.session.vars p) :
    st.Captures setting n d p :=
  ⟨hnode, fun _ ho => hnode ▸ h.outcome hst ho, Step.orderly_of_standing hn hd hs⟩

/-- A stop at the capture leaves it where the replies accepted by then say, unless it leaves the
capture. -/
theorem Stop.Captures.leaves (h : st.Captures setting n d p)
    (hw : ∀ x, st.effect? = some x → x.course = .wait) :
    Step.Standing d n.id (written st.session.vars st.effect?.toList) (replies d p [st]) := by
  unfold replies
  rw [List.foldl_cons, List.foldl_nil]
  cases hx : st.effect? with
  | none => exact h.orderly.stands
  | some x => exact h.orderly.leaves x (h.outcome _ (Stop.fate_of_effect hx)) (hw x hx)

/-- The first stop of a turn of the stay is at the capture, which stands where it stood. -/
theorem Tours.head_captures (hn : n.block = .leadCapture d) (hd : 0 < d.enabledFields.length)
    {now : Calendar.Moment} {message : Option String} (h : Tours setting now s message stops e)
    (hw : WaitsAt setting.flow n s) (hs : Step.Standing d n.id s.vars p)
    (hst : stops.head? = some st) :
    st.Captures setting n d p := by
  obtain ⟨hnode, hvars⟩ := h.head_of_waitsAt hw hst
  exact captures_of_standing hn hd h (List.mem_of_head? hst) hnode
    (hvars ▸ hs.congr fun _ hname => get?_heard hname)

/-- **A turn of the stay** leaves the capture where the replies accepted by then say. -/
theorem Takes.standing {r : Round} (hn : n.block = .leadCapture d) (hd : 0 < d.enabledFields.length)
    (t : Takes setting s₁ r s₂) (hw : WaitsAt setting.flow n s₁) (hone : r.stops.length ≤ 1)
    (hw' : WaitsAt setting.flow n s₂) (hs : Step.Standing d n.id s₁.vars p) :
    Step.Standing d n.id s₂.vars (replies d p r.stops) := by
  obtain ⟨⟨stops, ending⟩, log⟩ := r
  cases stops with
  | nil =>
      cases t with
      | dropped => exact hs
      | kept now message timeout t => exact (tours_of_ends t.ends).standing_none hs
  | cons st rest =>
      obtain rfl : rest = [] :=
        List.length_eq_zero_iff.mp (Nat.le_zero.mp (Nat.le_of_succ_le_succ hone))
      -- after a stop with an effect the session waits only where the effect does
      have hleft {now : Calendar.Moment} {message : Option String}
        (ht : Tours setting now s₁ message [st] ending)
          {x : Step.Effect} (hx : st.effect? = some x) : ∃ s r, ending = .finished s r ∧
            (s.status = .waitingInput → x.course = .wait) := by
        have hf := Stop.fate_of_effect hx
        cases ht with
        | underway f _ _ _ t =>
            obtain ⟨s, r, he⟩ := t.finished hf
            refine ⟨s, r, he, fun hstatus => ?_⟩
            by_contra hmoves
            obtain ⟨s', r', he', hne⟩ := left_of_goes t hf fun x' hx' => by
              cases hx'
              exact hmoves
            obtain rfl : s = s' := (Ending.finished.inj (he.symm.trans he')).1
            exact hne hstatus
      cases t with
      | kept now message timeout t =>
          have ht := tours_of_ends t.ends
          have hc : st.Captures setting n d p := ht.head_captures hn hd hw hs rfl
          change Step.Standing d n.id ending.session.vars _
          rw [ht.vars_last rfl]
          refine hc.leaves fun x hx => ?_
          obtain ⟨s, r, rfl, hwait⟩ := hleft ht hx
          exact hwait (eq_of_beq (Bool.and_eq_true_iff.mp hw'.1).1)
      | dropped now message timeout t hd' =>
          have hnone : st.effect? = none := by
            by_contra hx
            obtain ⟨x, hx⟩ := Option.ne_none_iff_exists'.mp hx
            obtain ⟨s, r, he, -⟩ := hleft (tours_of_ends t.ends) hx
            rw [show ending = .finished s r from he] at hd'
            cases hd'
          simpa [replies, hnone] using hs

theorem replies_append (d : Flow.LeadCapture) (p : Option (List String))
    (stops stops' : List Stop) :
    replies d p (stops ++ stops') = replies d (replies d p stops) stops' := List.foldl_append

/-- The stops of a stay. -/
def visits (rounds : List Round) : List Stop := rounds.flatMap (·.stops)

/-- What holds of each stop with those before it holds with one more stop when it holds of that one
with all before. -/
theorem forall_split_concat {P : List Stop → Stop → Prop}
    (h : ∀ before st after, stops = before ++ st :: after → P before st) (hst : P stops st) :
    ∀ before st' after, stops ++ [st] = before ++ st' :: after → P before st' := by
  intro before st' after heq
  rcases List.eq_nil_or_concat after with rfl | ⟨front, last, rfl⟩
  · obtain ⟨rfl, hlast⟩ := List.append_inj' heq rfl
    obtain rfl := List.singleton_inj.mp hlast
    exact hst
  · rw [List.concat_eq_append, ← List.cons_append, ← List.append_assoc] at heq
    exact h before st' front (List.append_inj_left' heq rfl)

/-- Each of the stops is at the capture, where the replies were accepted that those before it say.
-/
def InOrder (setting : Step.Setting) (n : Flow.Node) (d : Flow.LeadCapture) (stops : List Stop) :
    Prop :=
  ∀ before st after, stops = before ++ st :: after → st.Captures setting n d (replies d none before)

theorem InOrder.concat (h : InOrder setting n d stops)
    (hst : st.Captures setting n d (replies d none stops)) :
    InOrder setting n d (stops ++ [st]) := forall_split_concat h hst

/-- **In a stay at the capture** it stands after each turn where the replies accepted by then say.
-/
theorem Dwells.standing {rounds : List Round} {past : List Stop} (hn : n.block = .leadCapture d)
    (hd : 0 < d.enabledFields.length) (h : Dwells setting n s rounds s₁)
    (hpast : InOrder setting n d past) (hs : Step.Standing d n.id s.vars (replies d none past)) :
    InOrder setting n d (past ++ visits rounds) ∧
      Step.Standing d n.id s₁.vars (replies d none (past ++ visits rounds)) ∧
        WaitsAt setting.flow n s₁ := by
  induction h with
  | enters hw =>
      rw [visits, List.flatMap_nil, List.append_nil]
      exact ⟨hpast, hs, hw⟩
  | @stays rounds s₁ s₂ r h t hone hw ih =>
      obtain ⟨horder, hstands, hbefore⟩ := ih
      rw [visits, List.flatMap_append, List.flatMap_singleton, ← List.append_assoc, replies_append]
      refine ⟨?_, t.standing hn hd hbefore hone hw hstands, hw⟩
      cases hstops : r.stops with
      | nil => rwa [List.append_nil]
      | cons st rest =>
          obtain rfl : rest = [] := by
            rw [hstops] at hone
            exact List.length_eq_zero_iff.mp (Nat.le_zero.mp (Nat.le_of_succ_le_succ hone))
          obtain ⟨now, message, timeout, hcomes, -⟩ := t.comes
          exact horder.concat ((tours_of_ends hcomes.ends).head_captures hn hd hbefore hstands
            (by rw [hstops]; rfl))

end Parley.Turn
