import Parley.Calendar.Moment
import Parley.Value.Basic

/-!
# Sessions

A session is one conversation of a contact with one version of a flow: where it stands, what it
knows and which nodes it has been through. The history keeps the last entries up to a limit
(`Session.record`).
-/

namespace Parley

/-- The person on the other side. -/
structure Contact where
  id : String
  phone : String := ""
  name : String := ""
  deriving DecidableEq, Repr

namespace Session

/-- What a session is about to do. -/
inductive Status where
  | active
  /-- A node has asked and waits for the answer. -/
  | waitingInput
  | completed
  /-- A person has taken over. -/
  | handoff
  | error
  deriving DecidableEq, Repr

/-- The name of a status. -/
def Status.name : Status → String
  | .active => "active"
  | .waitingInput => "waiting_input"
  | .completed => "completed"
  | .handoff => "handoff"
  | .error => "error"

/-- The status of a name. -/
def Status.ofName? : String → Option Status
  | "active" => some .active
  | "waiting_input" => some .waitingInput
  | "completed" => some .completed
  | "handoff" => some .handoff
  | "error" => some .error
  | _ => none

/-- A status is told by its name. -/
theorem Status.ofName?_name (s : Status) : Status.ofName? s.name = some s := by
  cases s <;> rfl

/-- A node that the session has been through. -/
structure Visit where
  nodeId : String
  nodeKind : String
  action : String := "executed"
  moment : Calendar.Moment
  deriving Repr

end Session

/-- One conversation. -/
structure Session where
  id : String
  flowId : String
  flowVersion : Int := 1
  contact : Contact
  /-- The node the session stands at; empty before the first step. -/
  currentNodeId : String := ""
  status : Session.Status := .active
  vars : Fields := []
  history : List Session.Visit := []
  turnCount : Int := 0
  startedAt : Calendar.Moment
  lastActivityAt : Calendar.Moment
  deriving Repr

namespace Session

/-- A node waits for an answer. -/
def isWaiting (s : Session) : Bool := s.status == .waitingInput

/-- The conversation is over. -/
def isFinished (s : Session) : Bool := s.status == .completed || s.status == .error

/-- The last `limit` items; all of them when the limit is not positive. -/
def lastOf {α : Type} (limit : Int) (items : List α) : List α :=
  if 0 < limit then items.drop (items.length - limit.toNat) else items

/-- The session with one more visit, of which the oldest beyond the limit are dropped. -/
def record (s : Session) (limit : Int) (visit : Visit) : Session :=
  { s with history := lastOf limit (s.history ++ [visit]) }

/-- The session active now. -/
def touch (s : Session) (now : Calendar.Moment) : Session := { s with lastActivityAt := now }

/-- The session with one variable written. -/
def assign (s : Session) (name : String) (v : Value) : Session :=
  { s with vars := s.vars.put name v }

/-- The session as a dump has it: null in the place of every number that is not finite. -/
def dumped (s : Session) : Session := { s with vars := Value.dumpedFields s.vars }

@[simp] theorem dumped_id (s : Session) : s.dumped.id = s.id := rfl

@[simp] theorem dumped_flowId (s : Session) : s.dumped.flowId = s.flowId := rfl

@[simp] theorem dumped_contact (s : Session) : s.dumped.contact = s.contact := rfl

@[simp] theorem dumped_status (s : Session) : s.dumped.status = s.status := rfl

@[simp] theorem dumped_isFinished (s : Session) : s.dumped.isFinished = s.isFinished := rfl

@[simp] theorem dumped_lastActivityAt (s : Session) :
    s.dumped.lastActivityAt = s.lastActivityAt := rfl

/-- A dump of a dump is the dump. -/
@[simp] theorem dumped_dumped (s : Session) : s.dumped.dumped = s.dumped := by
  simp only [dumped, Value.dumpedFields_dumpedFields]

/-- The variables of the session can be written. -/
def fits (s : Session) : Bool := Value.fieldsFit s.vars

/-- A session can be written when its dump can. -/
@[simp] theorem fits_dumped (s : Session) : s.dumped.fits = s.fits := by
  simp only [fits, dumped, Value.fieldsFit, Value.depthFields_dumpedFields]

/-- No more than the limit is kept. -/
theorem length_lastOf_le {α : Type} {limit : Int} (h : 0 < limit) (items : List α) :
    (lastOf limit items).length ≤ limit.toNat := by
  rw [lastOf, if_pos h, List.length_drop]
  omega

end Session
end Parley
