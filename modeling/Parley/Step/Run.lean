import Parley.Step.Assistant
import Parley.Step.Lead

/-!
# Running a node

`Step.run` is the program of one node of a flow: what it asks of the collaborators, and its outcome.
It takes the session as it is and the answer of the contact, if there is one. A fault is an outcome.
-/

namespace Parley.Step

/-- The answer without blanks at its ends; a blank answer is none. -/
def givenAnswer (answer : Option String) : Option String :=
  match answer.map Text.strip with
  | some "" => none
  | a => a

/-- The effect of a node. -/
def effectOf (s : Setting) (n : Flow.Node) (session : Session) (answer : Option String) :
    Action Effect :=
  let vars := session.vars
  match n.block with
  | .start _ => runStart s n.id
  | .message d => runMessage s n.id vars d
  | .input d => runInput s n.id vars d answer
  | .menu d => runMenu s n.id vars d answer
  | .condition d => runCondition s n.id vars d
  | .assistant d => runAssistant s n.id vars d answer
  | .welcome d => runWelcome s n.id vars d answer
  | .handoff d => runHandoff n.id vars d
  | .webhook d => runWebhook s n.id vars d
  | .delay d => runDelay s n.id d
  | .tag d => runTag s n.id vars d
  | .assignment d => runAssignment s n.id vars d
  | .contractSearch d => runContractSearch s n.id vars session.contact d answer
  | .clientTag d => runClientTag s n.id vars d
  | .leadCapture d => runLeadCapture s n.id vars d answer
  | .ending d => runEnding vars d
  | .unknown kind _ => throw (.stated ("unknown node kind: " ++ kind))

/-- What an action comes to. -/
def Outcome.ofResult : Except Fault Effect → Outcome
  | .ok e => .done e
  | .error f => .failed f.report

/-- The program of a node. -/
def run (s : Setting) (n : Flow.Node) (session : Session) (answer : Option String) :
    StepProgram Outcome :=
  (effectOf s n session (givenAnswer answer)).run.bind fun r => .done (.ofResult r)

end Parley.Step
