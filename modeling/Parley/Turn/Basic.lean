import Parley.Step.Action

/-!
# Turns

A turn is everything that one message of a contact brings about. While it runs it may be
interrupted: its deadline passes, it is cancelled, or whoever runs it abandons it. A turn that is
cut short by the deadline or cancelled still has a result; an abandoned one has none.
-/

namespace Parley.Turn

/-- How a turn ended. -/
inductive State where
  | completed
  | waitingInput
  | handoff
  | error
  /-- The deadline passed or the turn was cancelled. -/
  | timeout
  | stepLimit
  deriving DecidableEq, Repr

/-- The name of a state. -/
def State.name : State → String
  | .completed => "completed"
  | .waitingInput => "waiting_input"
  | .handoff => "handoff"
  | .error => "error"
  | .timeout => "timeout"
  | .stepLimit => "step_limit"

/-- The result of a turn. -/
structure Result where
  sessionId : String
  flowId : String
  state : State
  messages : List String := []
  vars : Fields := []
  currentNodeId : String := ""
  stepsExecuted : Nat := 0
  error : String := ""
  handoff : Option Handoff := none

/-- The layout of a result as a document. -/
def Result.toValue (r : Result) : Value :=
  .object [("session_id", .text r.sessionId), ("flow_id", .text r.flowId),
    ("state", .text r.state.name), ("messages", .texts r.messages), ("variables", .object r.vars),
    ("current_node_id", .text r.currentNodeId), ("steps_executed", .int r.stepsExecuted),
    ("error", .text r.error), ("handoff", .ofOption Handoff.toValue r.handoff)]

/-- The result as a dump has it. -/
def Result.dumped (r : Result) : Result :=
  { r with vars := Value.dumpedFields r.vars, handoff := r.handoff.map Handoff.dumped }

/-- The result can be written. -/
def Result.fits (r : Result) : Bool := Value.fieldsFit r.vars && r.handoff.all Handoff.fits

/-- The document that is written of a result. -/
def Result.dump (r : Result) : Except Fault Value := Value.written r.fits r.dumped.toValue

/-- What cuts a step short. -/
inductive Interruption where
  | deadline
  | cancelled
  | abandoned
  deriving DecidableEq, Repr

/-- The error text of an interrupted turn. -/
def Interruption.reason : Interruption → String
  | .deadline => "turn deadline exceeded"
  | .cancelled | .abandoned => "turn cancelled"

/-- Whether the next step may begin. -/
inductive Entry where
  | go
  | cancelled
  | abandoned
  deriving DecidableEq, Repr

/-- A request of a turn. -/
inductive Op where
  /-- The time, in seconds. -/
  | time
  /-- May the next step begin? -/
  | enter
  /-- A request of the step under way, which is given up at the deadline. -/
  | act (op : Step.Op) (deadline : Option Rat)
  /-- The step is over; true when the turn was abandoned meanwhile. -/
  | leave

/-- The replies to a request. -/
def Op.Reply : Op → Type
  | .time => Rat
  | .enter => Entry
  | .act op _ => Except Interruption op.Reply
  | .leave => Bool

/-- A program of a turn. -/
abbrev TurnProgram := Program Op Op.Reply

/-- How the program of a turn ends: with the session as the turn leaves it, and a result unless it
was abandoned. -/
inductive Ending where
  | finished (session : Session) (result : Result)
  | abandoned (session : Session)

/-- The session as the turn leaves it. -/
def Ending.session : Ending → Session
  | .finished s _ => s
  | .abandoned s => s

end Parley.Turn
