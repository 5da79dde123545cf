import Parley.Step.Run
import Parley.Turn.Basic

/-!
# Running a turn

A turn begins at the start node, or at the node that waits for an answer, which alone is handed the
message. It goes from node to node until one waits, hands off, ends the flow or has no successor,
until one fails, until it is interrupted, or until it has taken as many steps as the policy allows.

What a step changes is written to the session when the step has succeeded, and not before. An
interrupted step leaves nothing, and its node is the one where the next turn begins.
-/

namespace Parley.Turn

/-- How far a turn has come. -/
structure Walk where
  session : Session
  messages : List String := []
  steps : Nat := 0

namespace Walk

/-- One more message is said. -/
def say (w : Walk) (message : String) : Walk := { w with messages := w.messages ++ [message] }

/-- The session has another status. -/
def become (w : Walk) (status : Session.Status) : Walk :=
  { w with session := { w.session with status := status } }

end Walk

/-- What a turn is run with, the same for all of its steps. -/
structure Frame where
  setting : Step.Setting
  now : Calendar.Moment
  deadline : Option Rat := none

namespace Frame

/-- The policy of the turn. -/
def policy (f : Frame) : Policy := f.setting.policy

/-- The visit of a node is recorded. -/
def record (f : Frame) (session : Session) (n : Flow.Node) (action : String) : Session :=
  session.record f.policy.historyLimit ⟨n.id, n.kind, action, f.now⟩

/-- The turn ends in a state. -/
def finish (f : Frame) (w : Walk) (state : State) (error : String) (handoff : Option Handoff) :
    Ending :=
  let session := w.session.touch f.now
  .finished session
    { sessionId := session.id, flowId := session.flowId, state := state, messages := w.messages,
      vars := session.vars, currentNodeId := session.currentNodeId,
      stepsExecuted := w.steps, error := error, handoff := handoff }

/-- The turn ends with an error, for which the contact is given an apology. -/
def fail (f : Frame) (w : Walk) (state : State) (error : String) : Ending :=
  f.finish ((w.become .error).say f.policy.errorMessage) state error none

/-- The turn is cut short; the next one begins at the node where it stopped. -/
def abort (f : Frame) (w : Walk) (n : Flow.Node) (reason : String) : Ending :=
  let session := f.record
    { w.session with currentNodeId := n.id, status := .waitingInput } n "aborted"
  f.finish ({ w with session := session }.say f.policy.errorMessage) .timeout reason none

/-- The turn ends for an interruption. -/
def interrupt (f : Frame) (w : Walk) (n : Flow.Node) : Interruption → Ending
  | .abandoned => .abandoned w.session
  | i => f.abort w n i.reason

/-- What a visit is called after its course. -/
def actionOf : Step.Course → String
  | .wait => "waiting"
  | .handoff _ => "handoff"
  | _ => "executed"

/-- The effect of a step is written to the session. -/
def commit (f : Frame) (w : Walk) (n : Flow.Node) (e : Step.Effect) : Walk :=
  let session := { w.session with
    vars := w.session.vars.update e.changes, currentNodeId := n.id }
  { w with
    session := f.record session n (actionOf e.course)
    messages := w.messages ++ e.output.messages }

/-- A step failed. -/
def failStep (f : Frame) (w : Walk) (n : Flow.Node) (error : String) : Ending :=
  let session := { f.record w.session n "failed" with currentNodeId := n.id }
  f.fail { w with session := session } .error
    ("node '" ++ n.id ++ "' (" ++ n.kind ++ ") failed: " ++ error)

/-- The steps that the policy allows are used up before a node. -/
def exhaust (f : Frame) (w : Walk) (n : Flow.Node) : Ending :=
  f.fail w .stepLimit
    ("step limit of " ++ Number.intText f.policy.maxSteps ++ " reached before node '" ++
      n.id ++ "'")

/-- Where the turn goes after a step: it ends, or it goes on at a node. -/
def after (f : Frame) (w : Walk) (n : Flow.Node) : Step.Course → Ending ⊕ Flow.Node
  | .wait => .inl (f.finish (w.become .waitingInput) .waitingInput "" none)
  | .handoff h => .inl (f.finish (w.become .handoff) .handoff "" (some h))
  | .finish | .proceed none => .inl (f.finish (w.become .completed) .completed "" none)
  | .proceed (some next) =>
    if next = "" then .inl (f.finish (w.become .completed) .completed "" none)
    else match f.setting.flow.node? next with
      | some m => .inr m
      | none => .inl (f.fail w .error ("node '" ++ n.id ++ "' routes to missing node '" ++
          next ++ "'"))

/-- Where the turn goes after the outcome of a step. -/
def settle (f : Frame) (w : Walk) (n : Flow.Node) : Step.Outcome → Ending ⊕ (Walk × Flow.Node)
  | .failed error => .inl (f.failStep w n error)
  | .done e =>
    let w := f.commit w n e
    match f.after w n e.course with
    | .inl ending => .inl ending
    | .inr m => .inr (w, m)

end Frame

/-- A program of a step as part of a turn: it stops where it is interrupted. -/
def guarded {α : Type} (deadline : Option Rat) :
    Step.StepProgram α → TurnProgram (Except Interruption α)
  | .done a => .done (.ok a)
  | .request op next => .request (.act op deadline) fun
    | .ok r => guarded deadline (next r)
    | .error i => .done (.error i)

/-- One step: the outcome, unless it is interrupted. -/
def step (f : Frame) (session : Session) (n : Flow.Node) (answer : Option String) :
    TurnProgram (Except Interruption Step.Outcome) :=
  (guarded f.deadline (Step.run f.setting n session answer)).bind fun
    | .error i => .done (.error i)
    | .ok r => .request .leave fun
      | true => .done (.error .abandoned)
      | false => .done (.ok r)

/-- The turn from a node on, with so many steps left. Only the first node is handed an answer. -/
def advance (f : Frame) : Nat → Walk → Flow.Node → Option String → TurnProgram Ending
  | 0, w, n, _ => .done (f.exhaust w n)
  | left + 1, w, n, answer => .request .enter fun
    | .abandoned => .done (.abandoned w.session)
    | .cancelled => .done (f.abort w n Interruption.cancelled.reason)
    | .go => (step f w.session n answer).bind fun r =>
      let w := { w with steps := w.steps + 1 }
      match r with
      | .error i => .done (f.interrupt w n i)
      | .ok outcome =>
        match f.settle w n outcome with
        | .inl ending => .done ending
        | .inr (w, m) => advance f left w m none

/-- Where a turn begins: the node, the answer it is handed, and the session as it is then. -/
def entry (flow : Flow) (session : Session) (answer : Option String) :
    Except String (Flow.Node × Option String × Session) :=
  if session.isWaiting && session.currentNodeId != "" then
    match flow.node? session.currentNodeId with
    | some n => .ok (n, answer, session)
    | none => .error ("suspended node '" ++ session.currentNodeId ++ "' not found in flow")
  else
    match flow.startNode? with
    | some n => .ok (n, none, { session with status := .active })
    | none => .error "flow has no start node"

/-- The session with the message noted, unless the message is blank. -/
def noteMessage (session : Session) : Option String → Session
  | some text => session.assign "last_user_message" (.text text)
  | none => session

/-- The moment at which a turn that begins at `start` is given up; none without a positive bound. -/
def deadlineOf (policy : Policy) (timeout : Option Binary64) (start : Rat) : Option Rat :=
  ((Policy.positive? (timeout.getD policy.turnTimeout)).bind Binary64.toRat?).map (start + ·)

/-- The program of a turn: the session takes a message, or goes on without one. -/
def run (setting : Step.Setting) (now : Calendar.Moment) (session : Session)
    (message : Option String) (timeout : Option Binary64) : TurnProgram Ending :=
  .request .time fun start =>
    let f : Frame := ⟨setting, now, deadlineOf setting.policy timeout start⟩
    let answer := Step.givenAnswer message
    let session := { session with turnCount := session.turnCount + 1, lastActivityAt := now }
    if session.flowId ≠ setting.flow.id then
      .done (f.fail { session := session } .error
        ("session belongs to flow '" ++ session.flowId ++ "', not '" ++ setting.flow.id ++ "'"))
    else
      let session := noteMessage session answer
      match entry setting.flow session answer with
      | .error e => .done (f.fail { session := session } .error e)
      | .ok (n, answer, session) =>
        advance f setting.policy.maxSteps.toNat { session := session } n answer

end Parley.Turn
