import Parley.Consultation
import Parley.Flow.Graph
import Parley.Policy
import Parley.Program
import Parley.Step.Outcome
import Parley.Template

/-!
# Actions of a step

A step is a program that consults collaborators and sleeps, and that may end with a fault. The
setting of a step is the flow it belongs to, the policy it runs under and the collaborators there
are.
-/

namespace Parley.Step

/-- A request of a step. -/
inductive Op where
  /-- Ask a collaborator, who has so many seconds to answer where there is a bound. -/
  | consult (c : Consultation) (bound : Option Binary64)
  | sleep (seconds : Binary64)

/-- The replies to a request. -/
def Op.Reply : Op → Type
  | .consult c _ => Except Fault c.Answer
  | .sleep _ => Unit

/-- A program of a step. -/
abbrev StepProgram := Program Op Op.Reply

/-- A program of a step that may end with a fault. -/
abbrev Action := ExceptT Fault StepProgram

/-- Where a step is run. -/
structure Setting where
  flow : Flow
  policy : Policy
  team : Team

namespace Setting

/-- The id of the node that follows for a handle. -/
def next (s : Setting) (id handle : String) : Except Fault (Option String) := do
  let (target, _) ← s.flow.route id handle s.policy.strictRouting
  return target.map (·.id)

/-- The course to the node that follows for a handle. -/
def onward (s : Setting) (id handle : String) :
    Except Fault Course := (s.next id handle).map .proceed

/-- Ask a collaborator. -/
def consult (s : Setting) (c : Consultation) : Action c.Answer :=
  ExceptT.mk (Program.ask (Op.consult c s.policy.callBound))

end Setting

/-- Go on only if the collaborator is there. -/
def needs (present : Bool) (otherwise : String) : Action Unit :=
  if present then pure () else throw (.stated otherwise)

/-- The first text unless it is empty. -/
def orElseText (a b : String) : String := if a = "" then b else a

/-- The display of a variable; nothing when it is missing. -/
def displayOf (vars : Fields) (name : String) : Except Fault String :=
  ((vars.get? name).getD .null).display

/-- The variables of a list of names, each on a line of its own, below a heading. -/
def contextBlock (names : List String) (vars : Fields) : Except Fault String := do
  let lines ← (names.filter vars.has).mapM fun n => return n ++ ": " ++ (← displayOf vars n)
  return if lines.isEmpty then "" else "\n\nContexto:\n" ++ "\n".intercalate lines

end Parley.Step
