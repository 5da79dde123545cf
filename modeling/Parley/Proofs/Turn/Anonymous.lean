import Parley.Proofs.Turn.Resume

/-!
# Turns without ids and dates

Nothing that a turn does depends on the id of its session or on a date.  With the ids of sessions
and all dates blotted out (`Session.anonymous`, `Turn.Ending.anonymous`) a turn is the turn of the
session without them, request by request (`anonymous_run`).

What a turn writes is written alike, so every operation of a `Frame` commutes with `anonymous`, and
where a turn goes does not depend on what is blotted out (`anonymous_settle`).
-/

namespace Parley

/-- The date that stands for every other. -/
def Calendar.Moment.blank : Moment := ⟨⟨1, 1, 1⟩, 0, some 0⟩

/-- The visit without its date. -/
def Session.Visit.anonymous (v : Visit) : Visit := { v with moment := .blank }

/-- The session without its id and its dates. -/
def Session.anonymous (s : Session) : Session :=
  { s with id := "", startedAt := .blank, lastActivityAt := .blank,
           history := s.history.map Visit.anonymous }

/-- The last of what is made of items is made of the last. -/
theorem Session.lastOf_map {α β : Type} (limit : Int) (items : List α) (f : α → β) :
    (lastOf limit items).map f = lastOf limit (items.map f) := by
  unfold lastOf
  split
  · rw [List.map_drop, List.length_map]
  · rfl

/-- A visit is recorded alike without its moment. -/
theorem Session.anonymous_record (s : Session) (limit : Int) (v : Visit) :
    (s.record limit v).anonymous = s.anonymous.record limit v.anonymous := by
  simp only [record, anonymous, lastOf_map, List.map_append, List.map_cons, List.map_nil]

namespace Turn

/-- The result without the id of its session. -/
def Result.anonymous (r : Result) : Result := { r with sessionId := "" }

/-- The ending without ids and dates. -/
def Ending.anonymous : Ending → Ending
  | .finished s r => .finished s.anonymous r.anonymous
  | .abandoned s => .abandoned s.anonymous

/-- The walk without ids and dates. -/
def Walk.anonymous (w : Walk) : Walk := { w with session := w.session.anonymous }

/-- The frame of a turn without its date. -/
def Frame.anonymous (f : Frame) : Frame := { f with now := .blank }

/-- Where a turn goes, without ids and dates. -/
def anonymousNext : Ending ⊕ (Walk × Flow.Node) → Ending ⊕ (Walk × Flow.Node)
  | .inl e => .inl e.anonymous
  | .inr (w, m) => .inr (w.anonymous, m)

variable (f : Frame) (w : Walk) (n : Flow.Node)

/-! ### What is written to the session -/

theorem anonymous_record (s : Session) (action : String) :
    (f.record s n action).anonymous = f.anonymous.record s.anonymous n action :=
  s.anonymous_record f.policy.historyLimit ⟨n.id, n.kind, action, f.now⟩

/-- A turn is finished alike without ids and dates. -/
theorem anonymous_finish (state : State) (error : String) (handoff : Option Handoff) :
    (f.finish w state error handoff).anonymous =
      f.anonymous.finish w.anonymous state error handoff :=
  rfl

theorem anonymous_fail (state : State) (error : String) :
    (f.fail w state error).anonymous = f.anonymous.fail w.anonymous state error := rfl

theorem anonymous_abort (reason : String) :
    (f.abort w n reason).anonymous = f.anonymous.abort w.anonymous n reason := by
  unfold Frame.abort
  rw [anonymous_finish]
  unfold Walk.say Walk.anonymous
  rw [anonymous_record]
  rfl

/-- A turn is interrupted alike without ids and dates. -/
theorem anonymous_interrupt (i : Interruption) :
    (f.interrupt w n i).anonymous = f.anonymous.interrupt w.anonymous n i := by
  cases i with
  | abandoned => rfl
  | deadline | cancelled => exact anonymous_abort f w n _

/-- An effect is committed alike without ids and dates. -/
theorem anonymous_commit (e : Step.Effect) :
    (f.commit w n e).anonymous = f.anonymous.commit w.anonymous n e := by
  unfold Frame.commit Walk.anonymous
  dsimp only
  rw [anonymous_record]
  rfl

theorem anonymous_failStep (error : String) :
    (f.failStep w n error).anonymous = f.anonymous.failStep w.anonymous n error := by
  have hs : { f.record w.session n "failed" with currentNodeId := n.id }.anonymous =
      { f.anonymous.record w.anonymous.session n "failed" with currentNodeId := n.id } := by
    change { (f.record w.session n "failed").anonymous with currentNodeId := n.id } = _
    rw [anonymous_record]
    rfl
  unfold Frame.failStep
  rw [anonymous_fail]
  unfold Walk.anonymous
  dsimp only
  rw [hs]
  rfl

/-! ### Where the turn goes -/

/-- **After a step** the turn goes to the same place. -/
theorem anonymous_settle (o : Step.Outcome) :
    anonymousNext (f.settle w n o) = f.anonymous.settle w.anonymous n o := by
  cases o with
  | failed error => exact congrArg Sum.inl (anonymous_failStep f w n error)
  | done e =>
      unfold Frame.settle
      dsimp only
      rw [← anonymous_commit]
      generalize f.commit w n e = w'
      unfold Frame.after
      cases e.course with
      | wait | handoff | finish => rfl
      | proceed next =>
          cases next with
          | none => rfl
          | some next =>
              dsimp only
              by_cases hn : next = ""
              · rw [if_pos hn, if_pos hn]
                rfl
              · have hf : f.anonymous.setting = f.setting := rfl
                rw [if_neg hn, if_neg hn, hf]
                cases f.setting.flow.node? next <;> rfl

/-- A flow is entered alike without ids and dates. -/
theorem anonymous_entry (flow : Flow) (s : Session) (answer : Option String) :
    (entry flow s answer).map (fun e => (e.1, e.2.1, e.2.2.anonymous)) =
      entry flow s.anonymous answer := by
  unfold entry
  have hw : s.anonymous.isWaiting = s.isWaiting := rfl
  have hn : s.anonymous.currentNodeId = s.currentNodeId := rfl
  rw [hw, hn]
  split
  · cases flow.node? s.currentNodeId <;> rfl
  · cases flow.startNode? <;> rfl

/-! ### The turn -/

/-- What a program of a turn ends with, without ids and dates. -/
def blot (e : Ending) : TurnProgram Ending := .done e.anonymous

/-- The turn goes on where a node led it. -/
def goOn (f : Frame) (left : Nat) : Ending ⊕ (Walk × Flow.Node) → TurnProgram Ending
  | .inl e => .done e
  | .inr (w, m) => advance f left w m none

/-- The turn after a node was run, or interrupted. -/
def afterStep (f : Frame) (left : Nat) (w : Walk) (n : Flow.Node) :
    Except Interruption Step.Outcome → TurnProgram Ending
  | .error i => .done (f.interrupt w.stepped n i)
  | .ok o => goOn f left (f.settle w.stepped n o)

/-- The turn before a node, with a step left. -/
theorem advance_succ (left : Nat) (answer : Option String) :
    advance f (left + 1) w n answer = .request .enter fun
      | .abandoned => .done (.abandoned w.session)
      | .cancelled => .done (f.abort w n Interruption.cancelled.reason)
      | .go => (step f w.session n answer).bind (afterStep f left w n) := by
  rw [advance]
  refine congrArg (Program.request Op.enter) (funext fun entered => ?_)
  cases entered with
  | abandoned | cancelled => rfl
  | go =>
      refine congrArg (Program.bind _) (funext fun r => ?_)
      cases r with
      | error i => rfl
      | ok o =>
          unfold afterStep goOn
          cases f.settle w.stepped n o <;> rfl

/-- A node is run alike without ids and dates. -/
theorem anonymous_step (s : Session) (answer : Option String) :
    step f.anonymous s.anonymous n answer = step f s n answer := by
  have hrun : Step.run f.setting n s.anonymous answer = Step.run f.setting n s answer :=
    Step.run_congr f.setting n rfl rfl answer
  have hdeadline : f.anonymous.deadline = f.deadline := rfl
  have hsetting : f.anonymous.setting = f.setting := rfl
  unfold step
  rw [hdeadline, hsetting, hrun]

/-- **All the steps.** -/
theorem anonymous_advance (left : Nat) (answer : Option String) :
    (advance f left w n answer).bind blot = advance f.anonymous left w.anonymous n answer := by
  induction left generalizing w n answer with
  | zero => rfl
  | succ left ih =>
      rw [advance_succ, advance_succ]
      refine congrArg (Program.request Op.enter) (funext fun entered => ?_)
      cases entered with
      | abandoned => rfl
      | cancelled => exact congrArg Program.done (anonymous_abort f w n _)
      | go =>
          have hs : w.anonymous.session = w.session.anonymous := rfl
          refine (Program.bind_assoc _ _ _).trans ?_
          dsimp only
          rw [hs, anonymous_step]
          refine congrArg (Program.bind _) (funext fun r => ?_)
          cases r with
          | error i => exact congrArg Program.done (anonymous_interrupt f w.stepped n i)
          | ok o =>
              have hw : w.anonymous.stepped = w.stepped.anonymous := rfl
              unfold afterStep
              dsimp only
              rw [hw, ← anonymous_settle]
              cases f.settle w.stepped n o with
              | inl ending => rfl
              | inr next => exact ih next.1 next.2 none

/-- A turn is begun alike without ids and dates. -/
theorem anonymous_begun (now : Calendar.Moment) (s : Session) (message : Option String) :
    (begun now s message).anonymous = begun .blank s.anonymous message := by
  rw [begun_eq, begun_eq]
  rfl

/-- The turn of a session of the flow, from the node where it begins. -/
def setOut (f : Frame) (s : Session) (message : Option String) : TurnProgram Ending :=
  match entry f.setting.flow (begun f.now s message) (Step.givenAnswer message) with
  | .error e => .done (f.fail { session := begun f.now s message } .error e)
  | .ok (n, answer, opened) =>
    advance f f.setting.policy.maxSteps.toNat { session := opened } n answer

/-- A turn from the moment at which it begins. -/
def runFrom (setting : Step.Setting) (now : Calendar.Moment) (s : Session) (message : Option String)
    (timeout : Option Binary64) (start : Rat) : TurnProgram Ending :=
  let f : Frame := ⟨setting, now, deadlineOf setting.policy timeout start⟩
  if s.flowId = setting.flow.id then setOut f s message
  else .done (f.fail { session := counted now s } .error
    ("session belongs to flow '" ++ s.flowId ++ "', not '" ++ setting.flow.id ++ "'"))

/-- A turn begins with a look at the clock. -/
theorem run_eq (setting : Step.Setting) (now : Calendar.Moment) (s : Session)
    (message : Option String) (timeout : Option Binary64) :
    run setting now s message timeout =
      .request .time (runFrom setting now s message timeout) := by
  refine congrArg (Program.request Op.time) (funext fun start => ?_)
  exact ite_not _ _ _

/-- A turn sets out alike without ids and dates. -/
theorem anonymous_setOut (s : Session) (message : Option String) :
    (setOut f s message).bind blot = setOut f.anonymous s.anonymous message := by
  have hentry := anonymous_entry f.setting.flow (begun f.now s message) (Step.givenAnswer message)
  have hsetting : f.anonymous.setting = f.setting := rfl
  have hnow : f.anonymous.now = .blank := rfl
  rw [anonymous_begun] at hentry
  unfold setOut
  rw [hsetting, hnow, ← hentry, ← anonymous_begun f.now]
  cases entry f.setting.flow (begun f.now s message) (Step.givenAnswer message) with
  | error e => rfl
  | ok e => exact anonymous_advance f _ e.1 _ e.2.1

/-- **A turn without ids and dates** is the turn of the session without them. -/
theorem anonymous_run (setting : Step.Setting) (now : Calendar.Moment) (s : Session)
    (message : Option String) (timeout : Option Binary64) :
    (run setting now s message timeout).bind blot =
      run setting .blank s.anonymous message timeout := by
  rw [run_eq, run_eq]
  refine congrArg (Program.request Op.time) (funext fun start => ?_)
  have hflow : s.anonymous.flowId = s.flowId := rfl
  unfold runFrom
  rw [hflow]
  split
  · exact anonymous_setOut _ s message
  · rfl

end Turn
end Parley
