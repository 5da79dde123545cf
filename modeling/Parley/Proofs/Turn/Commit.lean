import Parley.Proofs.Turn.Tour
import Parley.Proofs.Value.Entries

/-!
# What a turn commits

A turn writes to the session what its nodes changed, node by node, and nothing of a node that
failed or was interrupted.  `effects stops` are the effects of the nodes that succeeded on a tour,
in order; everything a turn leaves behind is a function of them (`Commits`).

`commits_of_goes` is the induction over the way of a tour, from the walk as it stands; the
statement about whole turns is `tour_commits`.
-/

namespace Parley.Turn

/-- The effect of the node, if it succeeded. -/
def Stop.effect? (st : Stop) : Option Step.Effect :=
  match st.fate with
  | .over (.done e) => some e
  | _ => none

/-- The node failed, or was interrupted while it ran. -/
def Stop.broke (st : Stop) : Bool :=
  match st.fate with
  | .cut _ | .over (.failed _) => true
  | _ => false

/-- The effects of the nodes that succeeded, in order. -/
def effects (stops : List Stop) : List Step.Effect := stops.filterMap Stop.effect?

/-- The variables with the changes of some effects written, one effect after the other. -/
def written (vars : Fields) (es : List Step.Effect) : Fields :=
  es.foldl (fun vars e => vars.update e.changes) vars

/-- The effects noted are effects of the nodes. -/
theorem exists_of_mem_effects {stops : List Stop} {e : Step.Effect} (h : e ∈ effects stops) :
    ∃ st ∈ stops, st.fate = .over (.done e) := by
  obtain ⟨st, hst, he⟩ := List.mem_filterMap.mp h
  refine ⟨st, hst, ?_⟩
  unfold Stop.effect? at he
  split at he
  · next hf =>
    cases he
    exact hf
  · cases he

/-- A variable that no effect names stays as it was. -/
theorem get?_written {es : List Step.Effect} {name : String} (h : ∀ e ∈ es, name ∉ e.changes.names)
    (vars : Fields) : (written vars es).get? name = vars.get? name := by
  induction es generalizing vars with
  | nil => rfl
  | cons e rest ih =>
      exact (ih (fun e he => h e (List.mem_cons_of_mem _ he)) _).trans
        (Entries.get?_update_of_notMem (h e List.mem_cons_self))

/-- The contact is given an apology for a turn that ends so. -/
def State.apologises : State → Bool
  | .error | .timeout | .stepLimit => true
  | .completed | .waitingInput | .handoff => false

/-- The session and the result of a turn that went on from a walk: the variables, the messages and
the number of steps are those of the walk and of the nodes that succeeded from there. -/
structure Commits (policy : Policy) (w : Walk) (stops : List Stop) (s : Session) (r : Result) :
    Prop where
  vars : s.vars = written w.session.vars (effects stops)
  messages : r.messages = w.messages ++ (effects stops).flatMap (·.output.messages) ++
    if r.state.apologises then [policy.errorMessage] else []
  steps : r.stepsExecuted = w.steps + (effects stops).length + if stops.any Stop.broke then 1 else 0
  resultVars : r.vars = s.vars
  resultNode : r.currentNodeId = s.currentNodeId

/-- An ending leaves what its walk holds. -/
theorem commits_finish {f : Frame} {w w' : Walk} {stops : List Stop} {state : State}
    {error : String} {handoff : Option Handoff}
    (hv : w'.session.vars = written w.session.vars (effects stops))
    (hm : w'.messages = w.messages ++ (effects stops).flatMap (·.output.messages) ++
      if state.apologises then [f.policy.errorMessage] else [])
    (hs : w'.steps = w.steps + (effects stops).length + if stops.any Stop.broke then 1 else 0) :
    (f.finish w' state error handoff).Leaves (Commits f.policy w stops) :=
  ⟨hv, hm, hs, rfl, rfl⟩

/-- A node that ends the turn commits its effect; one that failed commits nothing. -/
theorem commits_of_settles {f : Frame} {w : Walk} {n : Flow.Node} {resumed : Bool}
    {answer : Option String} {o : Step.Outcome} {e : Ending}
    (hs : Settles f w.stepped n o (.inl e)) :
    e.Leaves (Commits f.policy w [⟨n, resumed, w.session, answer, .over o⟩]) := by
  cases hs with
  | failed error =>
      exact commits_finish rfl (by simp [effects, Stop.effect?, State.apologises, Walk.say,
        Walk.become, Walk.stepped]) rfl
  | waits hc | handsOff hc | completes hc =>
      exact commits_finish rfl (by simp [effects, Stop.effect?, State.apologises, Walk.become,
        Walk.stepped, Frame.commit]) rfl
  | strays hc hm =>
      exact commits_finish rfl (by simp [effects, Stop.effect?, State.apologises, Walk.say,
        Walk.become, Walk.stepped, Frame.commit]) rfl

/-- **What a tour commits.**  From a walk on, the variables, messages and steps grow by those of
the nodes that succeed, and by nothing else. -/
theorem commits_of_goes {f : Frame} {left : Nat} {w : Walk} {n : Flow.Node} {resumed : Bool}
    {answer : Option String} {stops : List Stop} {e : Ending}
    (h : Goes f left w n resumed answer stops e) : e.Leaves (Commits f.policy w stops) := by
  induction h with
  | exhausted w n =>
      exact commits_finish rfl (by simp [effects, State.apologises, Walk.say, Walk.become]) rfl
  | spared w n =>
      exact commits_finish rfl (by simp [effects, Stop.effect?, State.apologises, Walk.say]) rfl
  | deserted w n => trivial
  | @cut _ w n _ _ i =>
      cases i with
      | abandoned => trivial
      | deadline | cancelled =>
          exact commits_finish rfl (by simp [effects, Stop.effect?, State.apologises, Walk.say,
            Walk.stepped]) rfl
  | ended w n resumed answer _ hs => exact commits_of_settles hs
  | @onward _ w n _ _ _ _ _ stops e _ hs _ ih =>
      cases hs with
      | proceeds =>
          cases e with
          | abandoned _ => trivial
          | finished s r =>
              -- the stop comes before the others, in what is said and in the count
              obtain ⟨hv, hm, hs, hrv, hrn⟩ := ih
              refine ⟨hv, ?_, ?_, hrv, hrn⟩
              · rw [hm]
                simp [effects, Stop.effect?, Frame.commit, Walk.stepped]
              · rw [hs]
                simp [effects, Stop.effect?, Stop.broke, Frame.commit, Walk.stepped]
                omega

theorem commits_of_tours {setting : Step.Setting} {now : Calendar.Moment} {session : Session}
    {message : Option String} {stops : List Stop} {e : Ending}
    (hflow : session.flowId = setting.flow.id) (h : Tours setting now session message stops e) :
    e.Leaves (Commits setting.policy { session := begun now session message } stops) := by
  cases h with
  | refused f hne => exact absurd hflow hne
  | lost f _ hf =>
      subst hf
      exact commits_finish rfl (by simp [effects, State.apologises, Walk.say, Walk.become]) rfl
  | underway f _ hf he t =>
      subst hf
      cases e with
      | abandoned _ => trivial
      | finished s r =>
          obtain ⟨hv, hm, hs, hrv, hrn⟩ := commits_of_goes t
          exact ⟨hv.trans (congrArg (written · (effects stops)) (enters_of_entry he).vars), hm,
            hs, hrv, hrn⟩

/-- **The commit discipline of a turn.**  On every tour that comes to a result, whatever the
collaborators answer and whenever it is interrupted: the outcomes noted are outcomes of the nodes;
the variables are those the turn began with and then the changes of the nodes that succeeded, in
order; the messages are theirs, with one apology after them when the turn ended in an error, in
time or at the step limit; the steps are those nodes and the one that failed or was interrupted,
if there is one; and the result tells the variables and the node of the session. -/
theorem tour_commits {setting : Step.Setting} {now : Calendar.Moment} {session : Session}
    {message : Option String} {timeout : Option Binary64} {stops : List Stop} {s : Session}
    {r : Result} (hflow : session.flowId = setting.flow.id)
    (h : (tour setting now session message timeout).Ends (stops, .finished s r)) :
    (∀ st ∈ stops, ∀ o, st.fate = .over o →
        (Step.run setting st.node st.session st.answer).Ends o) ∧
      s.vars = written (heard session.vars message) (effects stops) ∧
      r.messages = (effects stops).flatMap (·.output.messages) ++
        (if r.state.apologises then [setting.policy.errorMessage] else []) ∧
      r.stepsExecuted = (effects stops).length + (if stops.any Stop.broke then 1 else 0) ∧
      r.vars = s.vars ∧ r.currentNodeId = s.currentNodeId := by
  have ht := tours_of_ends h
  obtain ⟨hv, hm, hs, hrv, hrn⟩ := commits_of_tours hflow ht
  refine ⟨fun st hst o ho => ht.outcome hst ho, ?_, ?_, ?_, hrv, hrn⟩
  · rw [hv, vars_begun]
  · rw [hm, List.nil_append]
  · rw [hs, Nat.zero_add]

/-- The greeting, interrupted in its pause: the greeting is said, the apology follows, and the pause
counts as a step. -/
theorem tour_commits_greeting :
    ∃ stops s r, (tour greetingSetting newYear newcomer (some " hi ") none).Ends
        (stops, .finished s r) ∧ newcomer.flowId = greetingSetting.flow.id ∧
      (r.state, r.messages, r.stepsExecuted) =
        (.timeout, ["Hello.", greetingSetting.policy.errorMessage], 3) ∧
      s.vars = written (heard newcomer.vars (some " hi ")) (effects stops) ∧
      r.messages = (effects stops).flatMap (·.output.messages) ++
        (if r.state.apologises then [greetingSetting.policy.errorMessage] else []) ∧
      r.stepsExecuted = (effects stops).length + (if stops.any Stop.broke then 1 else 0) ∧
      r.vars = s.vars ∧ r.currentNodeId = s.currentNodeId := by
  have hplay : (((tour greetingSetting newYear newcomer (some " hi ") none).play
      (cutShort silent 0 .deadline) ⟨(), (), 3⟩).1.2.result?.map
        fun r => (r.state, r.messages, r.stepsExecuted)) =
      some (.timeout, ["Hello.", greetingSetting.policy.errorMessage], 3) := by decide +kernel
  obtain ⟨r, hr, hshape⟩ := Option.map_eq_some_iff.mp hplay
  obtain ⟨s, hends⟩ := ends_of_result? hr
  exact ⟨_, s, r, hends, rfl, hshape, (tour_commits rfl hends).2⟩

end Parley.Turn
