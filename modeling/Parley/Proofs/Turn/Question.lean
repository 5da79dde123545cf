import Parley.Proofs.Step.Prompt
import Parley.Proofs.Turn.Conversation

/-!
# Questions and answers over a conversation

A node takes a message as the answer to its question.  Was the question put?  The stops of all the
turns, in order, are the log of a conversation, and the question is about the part of the log since
the node was last entered.

* `Stop.Asks`: the node ran, waits, and what it said puts its question.
* `Stays`: the end of the log since a node was entered; since then every turn has taken up that
  node.
* `Asked`: the invariant of a session that waits.  It has stayed at its node, and either a question
  was put since the node was entered, or no message is taken as an answer there, or the turn that
  entered the node was cancelled before the node was run (`AskedAt`).

A turn keeps the invariant (`asked_of_tours`) and so does a conversation (`Conversation.asked`).  In
the last case no question was put: such a turn leaves a session that waits at a node that never ran,
and the next message is taken for an answer.
-/

namespace Parley.Turn

/-- The node ran, waits, and what it said puts its question. -/
def Stop.Asks (st : Stop) : Prop :=
  ∃ e, st.fate = .over (.done e) ∧ e.course = .wait ∧ Step.Shows st.node st.session.vars e.output

/-- The end of a log since a node was entered: from then on every turn took up that node. -/
structure Stays (log : List Stop) (n : Flow.Node) (entry : Stop) (since : List Stop) : Prop where
  log : ∃ before, log = before ++ entry :: since
  node : entry.node = n
  entered : entry.resumed = false
  since : ∀ st ∈ since, st.node = n ∧ st.resumed = true

/-- The session stands at a node where it has stayed since the node was entered, and unless the turn
that entered it was cancelled before the node was run, the node has asked or takes no answer. -/
structure AskedAt (flow : Flow) (log : List Stop) (s : Session) (n : Flow.Node) (entry : Stop)
    (since : List Stop) : Prop where
  tells : flow.Tells n
  place : s.currentNodeId = n.id
  stays : Stays log n entry since
  asked : entry.fate = .spared ∨ (∃ st ∈ entry :: since, st.Asks) ∨ ¬ Step.TakesAnswer n s.vars

/-- A session that waits has been asked. -/
def Asked (flow : Flow) (log : List Stop) (s : Session) : Prop :=
  s.status = .waitingInput → ∃ n entry since, AskedAt flow log s n entry since

/-! ### The stop at which a session waits -/

/-- How the last stop of a turn leaves a session that waits. -/
inductive Pauses (setting : Step.Setting) (st : Stop) (s : Session) : Prop where
  | spared (h : st.fate = .spared) (hv : s.vars = st.session.vars)
  | cut (h : ¬ (Step.run setting st.node st.session st.answer).Quiet)
      (hv : s.vars = st.session.vars)
  | waits {e : Step.Effect} (h : st.fate = .over (.done e)) (hw : e.course = .wait)
      (hr : (Step.run setting st.node st.session st.answer).Ends (.done e))

/-- A node that is run without an answer and waits has asked, unless it takes no answer. -/
theorem Pauses.fresh {setting : Step.Setting} {st : Stop} {s : Session} (h : Pauses setting st s)
    (ha : st.answer = none) :
    st.fate = .spared ∨ st.Asks ∨ ¬ Step.TakesAnswer st.node s.vars := by
  cases h with
  | spared h _ => exact .inl h
  | cut h hv =>
      refine .inr (.inr fun ht => h ?_)
      rw [ha]
      exact Step.quiet_of_takesAnswer (hv ▸ ht)
  | waits h hw hr =>
      rcases Step.shows_of_waits hr hw with hs | ⟨-, a, hsome⟩
      · exact .inr (.inl ⟨_, h, hw, hs⟩)
      · rw [ha] at hsome
        cases hsome

/-- A node that takes no answer and is run again has asked when it takes one. -/
theorem Pauses.again {setting : Step.Setting} {st : Stop} {s : Session} (h : Pauses setting st s)
    (hn : ¬ Step.TakesAnswer st.node st.session.vars) :
    st.Asks ∨ ¬ Step.TakesAnswer st.node s.vars := by
  cases h with
  | spared _ hv | cut _ hv => exact .inr (hv ▸ hn)
  | waits h hw hr =>
      rcases Step.shows_of_waits hr hw with hs | ⟨⟨d, hd⟩, -⟩
      · exact .inl ⟨_, h, hw, hs⟩
      · refine absurd ?_ hn
        unfold Step.TakesAnswer
        rw [hd]
        trivial

/-- A tour that leaves a session waiting has its last stop at the node where the session stands. -/
theorem pauses_of_goes {f : Frame} {left : Nat} {w : Walk} {n : Flow.Node} {resumed : Bool}
    {answer : Option String} {stops : List Stop} {e : Ending}
    (h : Goes f left w n resumed answer stops e) (hn : f.setting.flow.Tells n) :
    e.Leaves fun s _ => s.status = .waitingInput → ∃ before st, stops = before ++ [st] ∧
      f.setting.flow.Tells st.node ∧ s.currentNodeId = st.node.id ∧ Pauses f.setting st s := by
  induction h with
  | exhausted => exact fun hw => nomatch hw
  | spared => exact fun _ => ⟨[], _, rfl, hn, rfl, .spared rfl rfl⟩
  | deserted => trivial
  | @cut _ w n resumed answer i hq =>
      cases i with
      | abandoned => trivial
      | deadline | cancelled =>
          exact fun _ => ⟨[], _, rfl, hn, rfl, .cut (fun h => nomatch hq h) rfl⟩
  | ended w n resumed answer hr hs =>
      cases hs with
      | failed | handsOff | completes | strays => exact fun hw => nomatch hw
      | waits hc => exact fun _ => ⟨[], _, rfl, hn, rfl, .waits rfl hc hr⟩
  | @onward _ _ _ _ _ _ _ _ rest e _ hs _ ih =>
      cases hs with
      | proceeds _ hnext hm =>
          cases e with
          | abandoned => trivial
          | finished s r =>
              intro hw
              obtain ⟨before, st, rfl, hst⟩ := ih (.of_node? hm hnext) hw
              exact ⟨_ :: before, st, rfl, hst⟩

/-! ### The invariant -/

/-- The message that a turn notes does not decide whether it is taken as an answer. -/
theorem takesAnswer_begun (n : Flow.Node) (now : Calendar.Moment) (session : Session)
    (message : Option String) :
    Step.TakesAnswer n (begun now session message).vars ↔ Step.TakesAnswer n session.vars := by
  rw [vars_begun]
  refine Step.takesAnswer_congr fun name hname => ?_
  unfold heard
  split
  · rw [Entries.get?_put, if_neg hname.symm]
  · rfl

/-- A session whose node a turn takes up waits. -/
theorem status_of_takesUp {now : Calendar.Moment} {session : Session} {message : Option String}
    (h : takesUp (begun now session message) = true) : session.status = .waitingInput := by
  have hw := (Bool.and_eq_true_iff.mp h).1
  rw [← status_begun now session message]
  exact eq_of_beq hw

/-- The node that a turn takes up is the one where the session has stayed. -/
theorem Asked.takenUp {flow : Flow} {log : List Stop} {now : Calendar.Moment} {session : Session}
    {message : Option String} {n : Flow.Node} (h : Asked flow log session)
    (ht : takesUp (begun now session message) = true)
    (hn : flow.node? (begun now session message).currentNodeId = some n) :
    ∃ entry since, AskedAt flow log session n entry since := by
  obtain ⟨m, entry, since, hm⟩ := h (status_of_takesUp ht)
  rw [currentNodeId_begun, hm.place, hm.tells.node] at hn
  obtain rfl := Option.some.inj hn
  exact ⟨entry, since, hm⟩

/-- A node that is entered begins a new stay. -/
theorem Stays.enter (log before : List Stop) {st : Stop} (h : st.resumed = false) :
    Stays (log ++ (before ++ [st])) st.node st [] :=
  ⟨⟨log ++ before, by simp⟩, rfl, h, by simp⟩

/-- A node that is taken up goes on with the stay. -/
theorem Stays.again {log : List Stop} {n : Flow.Node} {entry st : Stop} {since : List Stop}
    (h : Stays log n entry since) (hn : st.node = n) (hr : st.resumed = true) :
    Stays (log ++ [st]) n entry (since ++ [st]) := by
  obtain ⟨⟨before, rfl⟩, hnode, hentered, hsince⟩ := h
  refine ⟨⟨before, by simp⟩, hnode, hentered, fun st' hst => ?_⟩
  rcases List.mem_append.mp hst with hst | hst
  · exact hsince st' hst
  · obtain rfl := List.mem_singleton.mp hst
    exact ⟨hn, hr⟩

/-- A turn whose last stop is at a node that it entered. -/
theorem AskedAt.enter {setting : Step.Setting} {s : Session} {st : Stop} (log before : List Stop)
    (ht : setting.flow.Tells st.node) (hplace : s.currentNodeId = st.node.id)
    (hp : Pauses setting st s) (hr : st.resumed = false) (ha : st.answer = none) :
    AskedAt setting.flow (log ++ (before ++ [st])) s st.node st [] := by
  refine ⟨ht, hplace, .enter log before hr, ?_⟩
  rcases hp.fresh ha with hs | ha | hn
  · exact .inl hs
  · exact .inr (.inl ⟨st, List.mem_singleton.mpr rfl, ha⟩)
  · exact .inr (.inr hn)

/-- A turn whose only stop is at the node that it took up. -/
theorem AskedAt.again {setting : Step.Setting} {log since : List Stop} {session s : Session}
    {n : Flow.Node} {entry st : Stop} (h : AskedAt setting.flow log session n entry since)
    (hplace : s.currentNodeId = st.node.id) (hp : Pauses setting st s) (hn : st.node = n)
    (hr : st.resumed = true)
    (hv : Step.TakesAnswer n st.session.vars ↔ Step.TakesAnswer n session.vars) :
    AskedAt setting.flow (log ++ [st]) s n entry (since ++ [st]) := by
  subst hn
  refine ⟨h.tells, hplace, h.stays.again rfl hr, ?_⟩
  rcases h.asked with hs | ⟨st', hst', ha⟩ | hn
  · exact .inl hs
  · exact .inr (.inl ⟨st', List.mem_append_left [st] hst', ha⟩)
  · rcases hp.again (mt hv.mp hn) with ha | hn
    · exact .inr (.inl ⟨st, by simp, ha⟩)
    · exact .inr (.inr hn)

/-- **One turn.**  A turn that comes to a result keeps the invariant. -/
theorem asked_of_tours {setting : Step.Setting} (hd : setting.flow.defects = []) {log : List Stop}
    {now : Calendar.Moment} {session s : Session} {message : Option String} {stops : List Stop}
    {r : Result} (h : Asked setting.flow log session)
    (t : Tours setting now session message stops (.finished s r)) :
    Asked setting.flow (log ++ stops) s := by
  intro hw
  cases t with
  | refused | lost => exact nomatch hw
  | @underway f n answer opened _ _ _ hf he t =>
      subst hf
      have hen := enters_of_entry he
      obtain ⟨before, st, rfl, hst, hplace, hp⟩ := pauses_of_goes t (hen.tells hd) hw
      cases before with
      | cons first rest =>
          obtain ⟨hr, ha⟩ := t.tail (List.mem_append_right rest (List.mem_singleton.mpr rfl))
          exact ⟨_, _, _, .enter log (first :: rest) hst hplace hp hr ha⟩
      | nil =>
          have hhead := t.head rfl
          have hr : st.resumed = takesUp (begun now session message) := congrArg Stop.resumed hhead
          cases hen with
          | anew ht =>
              exact ⟨_, _, _, .enter log [] hst hplace hp (hr.trans ht)
                (congrArg Stop.answer hhead)⟩
          | again ht hn =>
              -- the only stop of the turn is at the node where the session has stayed
              obtain ⟨entry, since, hm⟩ := h.takenUp ht hn
              have hsession : st.session = begun now session message :=
                congrArg Stop.session hhead
              have hv := takesAnswer_begun n now session message
              rw [← hsession] at hv
              exact ⟨_, _, _, hm.again hplace hp (congrArg Stop.node hhead) (hr.trans ht) hv⟩

/-- **All the turns.**  In a conversation that a session begins without waiting, and whose turns
come to a result, a session that waits has been asked as `Asked` says. -/
theorem Conversation.asked {setting : Step.Setting} (hd : setting.flow.defects = [])
    {first s : Session} {episodes : List Episode} (hfirst : first.status ≠ .waitingInput)
    (h : Conversation setting first episodes s) (hr : ∀ e ∈ episodes, e.ending.result?.isSome) :
    Asked setting.flow (episodes.flatMap (·.stops)) s := by
  induction h with
  | opening => exact fun hw => absurd hw hfirst
  | @turn past s stops e h now message timeout t ih =>
      have hpast := ih fun e he => hr e (List.mem_append_left _ he)
      have hlast := hr ⟨stops, e⟩ (List.mem_append_right past (List.mem_singleton.mpr rfl))
      cases e with
      | abandoned _ => cases hlast
      | finished s' r =>
          rw [List.flatMap_append, List.flatMap_singleton]
          exact asked_of_tours hd hpast (tours_of_ends t)

/-- **No answer without a question, but for one case.**  A session that does not wait, as a new one
does not, takes turns that come to a result (what an abandoned turn leaves is not kept), under a
flow without defects, whatever the turns are told, whatever the collaborators answer and whenever
turns are cut short.  Then of every further turn only the first node is handed the message, and
only when the turn takes that node up.  When the node takes the message as an answer, the session
has stayed at it since it was entered; and its question was not put in that time exactly when the
turn that entered it was cancelled before the node was run, and no turn has put it since. -/
theorem question_before_answer {setting : Step.Setting} (hd : setting.flow.defects = [])
    {first s : Session} {past : List Episode} (hfirst : first.status ≠ .waitingInput)
    (h : Conversation setting first past s) (hr : ∀ e ∈ past, e.ending.result?.isSome)
    {now : Calendar.Moment} {message : Option String} {timeout : Option Binary64}
    {stops : List Stop} {e : Ending}
    (ht : (tour setting now s message timeout).Ends (stops, e)) :
    (∀ st ∈ stops.tail, st.answer = none) ∧
    ∀ st ∈ stops.head?, st.answer ≠ none → st.resumed = true ∧
      (Step.TakesAnswer st.node st.session.vars → ∃ entry since,
        Stays (past.flatMap (·.stops)) st.node entry since ∧
        ((∀ st' ∈ entry :: since, ¬ st'.Asks) ↔
          entry.fate = .spared ∧ ∀ st' ∈ since, ¬ st'.Asks)) := by
  have hasked := h.asked hd hfirst hr
  cases tours_of_ends ht with
  | refused | lost => exact ⟨by simp, by simp⟩
  | @underway f n answer opened _ _ _ hf he t =>
      subst hf
      refine ⟨fun st hst => (t.tail hst).2, fun st hst ha => ?_⟩
      have hhead := t.head hst
      have hresumed : st.resumed = takesUp (begun now s message) := congrArg Stop.resumed hhead
      cases enters_of_entry he with
      | anew => exact absurd (congrArg Stop.answer hhead) ha
      | again hup hn =>
          refine ⟨hresumed.trans hup, fun htakes => ?_⟩
          obtain ⟨entry, since, hm⟩ := hasked.takenUp hup hn
          have hnode : st.node = n := congrArg Stop.node hhead
          rw [hnode, congrArg Stop.session hhead, takesAnswer_begun] at htakes
          refine ⟨entry, since, hnode ▸ hm.stays, fun hnone => ?_, fun hspared => ?_⟩
          · rcases hm.asked with hs | ⟨st', hst', hasks⟩ | hn'
            · exact ⟨hs, fun st' hst' => hnone st' (List.mem_cons_of_mem _ hst')⟩
            · exact absurd hasks (hnone st' hst')
            · exact absurd htakes hn'
          -- a node that was not run asks nothing
          · intro st' hst'
            rcases List.mem_cons.mp hst' with rfl | hst'
            · rintro ⟨e, he, -⟩
              rw [hspared.1] at he
              cases he
            · exact hspared.2 st' hst'

/-- The node ran and waits. -/
def Stop.waits (st : Stop) : Bool :=
  match st.fate with
  | .over (.done { course := .wait, .. }) => true
  | _ => false

theorem Stop.Asks.waits {st : Stop} (h : st.Asks) : st.waits = true := by
  obtain ⟨⟨output, course, changes, metadata⟩, he, hw, -⟩ := h
  cases hw
  unfold Stop.waits
  rw [he]

/-- The greeting, cancelled when the name was about to be asked for. -/
def greetingCancelled : List Stop × Ending :=
  ((tour greetingSetting newYear newcomer (some "hi") none).play
    (cutShort silent 0 .cancelled) ⟨(), (), 4⟩).1

/-- The next turn of the greeting that was cancelled, with a message. -/
def greetingAnswered : List Stop × Ending :=
  ((tour greetingSetting newYear greetingCancelled.2.session (some "Ana") none).play
    (undisturbed silent 0) ()).1

/-- The greeting is cancelled when the name was about to be asked for.  The next message is taken
for the name, though nobody asked. -/
theorem question_before_answer_greeting :
    ∃ past s stops e, (greetingSetting.flow.defects = [] ∧ newcomer.status ≠ .waitingInput ∧
        Conversation greetingSetting newcomer past s ∧
        (∀ e ∈ past, e.ending.result?.isSome) ∧
        (tour greetingSetting newYear s (some "Ana") none).Ends (stops, e)) ∧
      (stops.head?.map fun st => (st.node.id, st.answer)) = some ("name", some "Ana") ∧
      e.result?.map (·.messages) = some ["Good day, Ana."] ∧
      (∀ st ∈ past.flatMap (·.stops), ¬ st.Asks) ∧
      (∀ st ∈ stops.tail, st.answer = none) ∧
      ∀ st ∈ stops.head?, st.answer ≠ none → st.resumed = true ∧
        (Step.TakesAnswer st.node st.session.vars → ∃ entry since,
          Stays (past.flatMap (·.stops)) st.node entry since ∧
          ((∀ st' ∈ entry :: since, ¬ st'.Asks) ↔
            entry.fate = .spared ∧ ∀ st' ∈ since, ¬ st'.Asks)) := by
  have hd : greetingSetting.flow.defects = [] := by decide +kernel
  have hfirst : newcomer.status ≠ .waitingInput := by decide
  have h : Conversation greetingSetting newcomer [⟨greetingCancelled.1, greetingCancelled.2⟩]
      greetingCancelled.2.session :=
    Conversation.opening.turn newYear (some "hi") none (Program.ends_play _ _ _)
  have hr : ∀ e ∈ [Episode.mk greetingCancelled.1 greetingCancelled.2],
      e.ending.result?.isSome := by decide +kernel
  have ht : (tour greetingSetting newYear greetingCancelled.2.session (some "Ana") none).Ends
      (greetingAnswered.1, greetingAnswered.2) := Program.ends_play _ _ _
  have hname : (greetingAnswered.1.head?.map fun st => (st.node.id, st.answer)) =
      some ("name", some "Ana") := by decide +kernel
  have hbye : greetingAnswered.2.result?.map (·.messages) = some ["Good day, Ana."] := by
    decide +kernel
  have hwaits : ∀ st ∈ greetingCancelled.1, st.waits = false := by decide +kernel
  refine ⟨_, _, _, _, ⟨hd, hfirst, h, hr, ht⟩, hname, hbye, fun st hst hasks => ?_,
    question_before_answer hd hfirst h hr ht⟩
  rw [List.flatMap_singleton] at hst
  exact absurd hasks.waits (by simp [hwaits st hst])

end Parley.Turn
