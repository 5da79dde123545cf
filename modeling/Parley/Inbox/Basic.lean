import Parley.Registry
import Parley.Store.Basic
import Parley.Turn.Run

/-!
# The inbox

What the handling of a message asks of its surroundings: the lock of the contact, the registry, the
store, a turn's requests and a ticket for a hand-off. Handling ends with a result or with a fault;
when it is abandoned, it ends with neither.

The turns of a session are run by the runner of the version that the session is on. Runners are
kept, and one is used again as long as the registry has the index that it was made for; when the
version was registered again meanwhile, a new one takes its place.
-/

namespace Parley.Inbox

/-- Why a message or a request is refused. -/
inductive Fault where
  | sessionNotFound (id : String)
  | flowNotFound (id : String)
  /-- No flow takes the message. -/
  | noFlow
  /-- The version of the flow that the session is on was never registered. -/
  | notRegistered (id : String) (version : Int)
  /-- The store cannot tell. -/
  | unreadable (fault : Store.RowFault)
  /-- What is to be kept or told cannot be written. -/
  | unwritable (fault : Parley.Fault)

/-- The text of a fault of the inbox's own. -/
def Fault.message : Fault → String
  | .sessionNotFound id => "Session '" ++ id ++ "' not found"
  | .flowNotFound id => "Flow '" ++ id ++ "' not found"
  | .noFlow => "No active flow matches the message"
  | .notRegistered id version =>
    "Flow '" ++ id ++ "' v" ++ Number.intText version ++ " is not registered"
  | .unreadable (.odd f) | .unwritable f => f.message
  | .unreadable (.malformed _) => ""

/-- A request of the inbox. -/
inductive Op where
  /-- Come to the lock of a contact; false when the task is abandoned before it is inside. -/
  | acquire (contact : String)
  | release (contact : String)
  | now
  /-- The id of a new session. -/
  | newId
  | load (id : String)
  | latest (contact flowId : String)
  | save (session : Session)
  | delete (id : String)
  | resolve (text flowId : String)
  | version (id : String) (version : Int)
  | turn (op : Turn.Op)
  /-- A ticket for a hand-off, within a bound; none when the task is abandoned before there is an
  answer. -/
  | ticket (target priority reason : String) (metadata : Fields) (bound : Option Binary64)

/-- The replies to a request. -/
def Op.Reply : Op → Type
  | .acquire _ => Bool
  | .release _ => Unit
  | .now => Calendar.Moment
  | .newId => String
  | .load _ => Except Store.RowFault (Option Session)
  | .latest .. => Except Store.RowFault (Option Session)
  | .save _ => Except Parley.Fault Unit
  | .delete _ => Except Parley.Fault Bool
  | .resolve .. => Option Flow
  | .version .. => Option Flow
  | .turn op => op.Reply
  | .ticket .. => Option (Except Parley.Fault Value)

/-- A program of the inbox. -/
abbrev InboxProgram := Program Op Op.Reply

/-- How the handling of a request ends. -/
inductive Outcome (α : Type) where
  | done (value : α)
  | refused (fault : Fault)
  | abandoned

/-- A program of the inbox that may be refused or abandoned. -/
abbrev Task (α : Type) := InboxProgram (Outcome α)

namespace Task

variable {α β : Type}

/-- Go on unless refused or abandoned. -/
def andThen (t : Task α) (f : α → Task β) : Task β :=
  t.bind fun
    | .done a => f a
    | .refused e => .done (.refused e)
    | .abandoned => .done .abandoned

/-- Ask for something that always comes. -/
def ask (op : Op) (f : op.Reply → Task β) : Task β := .request op f

/-- A value. -/
def give (a : α) : Task α := .done (.done a)

/-- A refusal. -/
def refuse (f : Fault) : Task α := .done (.refused f)

/-- What the store tells. -/
def told (r : Except Store.RowFault α) : Task α :=
  match r with
  | .ok a => give a
  | .error e => refuse (.unreadable e)

/-- A session is saved. -/
def save (s : Session) : Task Unit :=
  ask (.save s) fun
    | .ok () => give ()
    | .error e => refuse (.unwritable e)

/-- A task under the lock of a contact, which is released however the task ends. -/
def locked (contact : String) (t : Task α) : Task α :=
  ask (.acquire contact) fun
    | false => .done .abandoned
    | true => t.bind fun r => .request (.release contact) fun _ => .done r

end Task
/-- What runs turns on an index. All else that it needs is the same for all runners. -/
structure Runner where
  index : Registry.Index

/-- The runners that are kept, by the id and version of their flows. -/
abbrev Runners := List ((String × Int) × Runner)

/-- The runner for a version; none when the version was never registered. -/
def Runners.pick (rs : Runners) (reg : Registry) (id : String) (version : Int) :
    Option Runner × Runners :=
  match reg.index? id version with
  | none => (none, rs)
  | some index =>
    match (rs.lookup (id, version)).filter (·.index.edition == index.edition) with
    | some runner => (some runner, rs)
    | none => (some ⟨index⟩, ((id, version), ⟨index⟩) :: rs.filter (·.1 != (id, version)))

end Parley.Inbox
