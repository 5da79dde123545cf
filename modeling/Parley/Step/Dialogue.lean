import Parley.Answer
import Parley.Step.Action

/-!
# Nodes that need no collaborator

Starting, saying something, asking, offering a menu, deciding, tagging, writing a variable, handing
off, pausing and ending. An input or menu node without an answer asks; with an invalid answer it
asks again.
-/

namespace Parley.Step

open Template (fill)

variable (s : Setting) (id : String) (vars : Fields)

/-- A start node. -/
def runStart : Except Fault Effect := return { course := ← s.onward id "" }

/-- A message node. -/
def runMessage (d : Flow.Message) : Except Fault Effect := do
  let text ← fill d.message vars
  let metadata : Fields ←
    if d.mediaUrl = "" then pure []
    else pure [("media_url", .text (← fill d.mediaUrl vars)), ("media_type", .text d.mediaType)]
  return { output := .one text, course := ← s.onward id "", metadata := metadata }

/-- What is said of an invalid answer when the node has no words of its own. -/
def invalidAnswer : String := "Entrada inválida. Tente novamente."

/-- An input node. -/
def runInput (d : Flow.Question) : Option String → Except Fault Effect
  | none => return { output := .one (← fill d.question vars), course := .wait }
  | some answer => do
    if ← Answer.isValid answer d.validationType d.customValidation then
      return { course := ← s.onward id "",
               changes := [(orElseText d.variableName "input", .text answer)] }
    else
      let said ← fill d.errorMessage vars
      return { output := .one (orElseText said invalidAnswer), course := .wait,
               metadata := [("validation_failed", .text d.validationType)] }

/-- Lines that are numbered from 1. -/
def numbered (lines : List String) : List String :=
  (lines.zipIdx 1).map fun p => Number.natText p.2 ++ ". " ++ p.1

/-- A menu with its title. -/
def renderMenu (title : String) (options : List Flow.Choice) : String :=
  let heading := if title = "" then [] else [title, ""]
  "\n".intercalate (heading ++ numbered (options.map (·.label)))

/-- The whole number that a text of digits denotes. -/
def wholeOf (answer : String) : Except Fault Nat :=
  match Number.readIndex answer with
  | .ok n => .ok n
  | .error (.tooLong count) => .error (.tooLongToRead count)
  | .error .malformed => .error (.notWhole answer)

/-- The number of an answer that consists of digits; numbers from 1 to `count` choose. -/
def choiceOf (answer : String) (count : Nat) : Except Fault (Option Nat) :=
  if Text.isDigitText answer then do
    let n ← wholeOf answer
    return if 1 ≤ n ∧ n ≤ count then some (n - 1) else none
  else return none

/-- The answer is part of a choice's label or is its value, without regard to case. -/
def choiceAnswered (lowered : String) (c : Flow.Choice) : Bool :=
  Text.contains lowered (Text.lower c.label) || (c.value != "" && Text.lower c.value == lowered)

/-- The choice that an answer makes. -/
def matchOption (answer : String) (options : List Flow.Choice) (allowText : Bool) :
    Except Fault (Option Flow.Choice) := do
  match (← choiceOf answer options.length).bind (options[·]?) with
  | some c => return some c
  | none =>
    return if allowText then options.find? (choiceAnswered (Text.lower answer)) else none

/-- What is said of an answer that makes no choice when the menu has no words of its own. -/
def invalidChoice : String := "Opção inválida. Por favor, selecione uma das opções."

/-- A menu node. -/
def runMenu (d : Flow.Menu) (answer : Option String) : Except Fault Effect := do
  let menu := renderMenu (← fill d.menuTitle vars) d.options
  match answer with
  | none => return { output := .one menu, course := .wait }
  | some answer =>
    match ← matchOption answer d.options d.allowText with
    | none =>
      let said ← fill d.invalidMessage vars
      return { output := .several [orElseText said invalidChoice, menu], course := .wait,
               metadata := [("validation_failed", .text "menu")] }
    | some c =>
      return { course := ← s.onward id c.id,
               changes := [("menu_selection", .text (orElseText c.value c.label))],
               metadata := [("handle", .text c.id)] }

/-- A condition node. -/
def runCondition (d : Flow.Branch) : Except Fault Effect := do
  let holds ← Condition.allHold vars d.conditions
  let handle := if holds then "true" else "false"
  return { course := ← s.onward id handle, changes := [("condition_result", .bool holds)],
           metadata := [("handle", .text handle)] }

/-- A hand-off node. -/
def runHandoff (d : Flow.Transfer) : Except Fault Effect := do
  let priority := (Priority.ofName? d.priority).getD .normal
  let target ← fill d.targetId vars
  let said ← fill d.transferMessage vars
  let metadata : Fields := Entries.update [("node_id", .text id)]
    (d.metadata.map fun e => (e.1, .text e.2))
  return { output := .one said,
           changes := [("handoff_target", .text target), ("handoff_priority", .text priority.name)],
           course := .handoff ⟨target, priority, d.transferType, metadata⟩ }

/-- A delay node. -/
def runDelay (d : Flow.Delay) : Action Effect := do
  let seconds := s.policy.delay d.delaySeconds
  if Binary64.zero.lt seconds then
    ExceptT.lift (Program.ask (Op.sleep seconds))
  return { course := ← s.onward id "",
           metadata := [("delay_seconds", .float seconds), ("show_typing", .bool d.showTyping)] }

/-- The items that a value is made of: of a list its items, of a text its characters, of an object
its names. -/
def itemsOf : Value → Except Fault (List Value)
  | .list items => .ok items
  | .text t => .ok (t.toList.map fun c => .text (String.singleton c))
  | .object fields => .ok (fields.map fun e => .text e.1)
  | v => .error (.notIterable v.kindWord)

/-- The changes of tags so far. -/
def tagChanges : Except Fault (List Value) :=
  match vars.get? "tag_changes" with
  | some v => if v.isTruthy then itemsOf v else .ok []
  | none => .ok []

/-- A tag node. -/
def runTag (d : Flow.Tag) : Except Fault Effect := do
  let name := Text.strip (← fill d.tagName vars)
  if name = "" then throw (.stated "tag node has no tag name")
  let key := "tag_" ++ name
  let set := match d.action with
    | "remove" => false
    | "toggle" => !((vars.get? key).getD .null).isTruthy
    | _ => true
  let change : Value := .object [("tag", .text name), ("action", .text d.action),
    ("value", .bool set)]
  let changes := (← tagChanges vars) ++ [change]
  return { course := ← s.onward id "",
           changes := Entries.ofPairs [(key, .bool set), ("tag_changes", .list changes)] }

/-- A variable node. -/
def runAssignment (d : Flow.Assignment) : Except Fault Effect := do
  let value : Value ← match d.valueType with
    | "from_variable" =>
      match vars.get? d.sourceVariable with
      | none | some .null => pure (.text "")
      | some v => pure v
    | "expression" => (fill d.value vars).map .text
    | _ => pure (.text d.value)
  return { course := ← s.onward id "", changes := [(orElseText d.variableName "var", value)] }

/-- An end node. -/
def runEnding (d : Flow.Ending) : Except Fault Effect := do
  let said ← fill d.finalMessage vars
  return { output := if said = "" then .silence else .one said, course := .finish,
           changes := [("flow_ended", .bool true), ("flow_end_type", .text d.endType),
             ("flow_resolved", .bool d.markAsResolved)] }

end Parley.Step
