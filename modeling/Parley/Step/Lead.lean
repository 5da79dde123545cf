import Parley.Number.Digits
import Parley.Step.Contract

/-!
# Nodes that capture leads

The enabled fields are asked for one after the other. A cursor in the variables tells which one is
open; it belongs to the node that set it. When all fields are answered the lead is checked against
those known, saved and sent on, as the node asks for; what fails on the way leaves through the
handle for errors.
-/

namespace Parley.Step

open Template (fill)

variable (s : Setting) (id : String) (vars : Fields)

/-- The variables that close a capture. -/
def leadReset : Fields :=
  [("lead_capture_node", .null), ("lead_capture_index", .null), ("lead_capture_field", .null)]

/-- There is no lead without a back office. -/
def noLeadBackend : String := "no lead backend configured"

/-- The lead is known already. -/
def leadKnown (d : Flow.LeadCapture) (captured : Fields) : Action Effect :=
  return { output := .one (← fill d.duplicateMessage vars), course := ← s.onward id "duplicate",
           changes := leadReset ++
             [("lead_data", .object captured), ("lead_is_duplicate", .bool true)],
           metadata := [("handle", .text "duplicate")] }

/-- The lead is known already by the field that tells leads apart. -/
def isKnown (d : Flow.LeadCapture) (captured : Fields) : Action Bool := do
  let value := (captured.get? d.duplicateField).getD .null
  if d.validateDuplicates && value.isTruthy then
    needs s.team.backend noLeadBackend
    s.consult (.checkDuplicate value d.duplicateField d.databaseTable)
  else return false

/-- The lead is kept and sent on. -/
def keepLead (d : Flow.LeadCapture) (captured : Fields) : Action Unit := do
  if d.saveToDatabase || d.sendToWebhook then needs s.team.backend noLeadBackend
  if d.saveToDatabase then
    s.consult (.saveLead d.databaseTable captured d.leadSource d.autoTags)
  if d.sendToWebhook && d.webhookUrl != "" then
    s.consult (.sendLead (← fill d.webhookUrl vars) captured d.leadSource d.autoTags)

/-- The lead is saved. -/
def leadSaved (d : Flow.LeadCapture) (captured : Fields) : Except Fault Effect :=
  let named : Fields := captured.map fun e => ("lead_" ++ e.1, e.2)
  let kept := (Entries.put leadReset "lead_data" (.object captured)).update named
  return { output := .one (← fill d.successMessage vars), course := ← s.onward id "success",
           changes := kept.update [("lead_is_duplicate", .bool false), ("lead_saved", .bool true)],
           metadata := [("handle", .text "success")] }

/-- The lead could not be kept. -/
def leadFailed (d : Flow.LeadCapture) (captured : Fields) (f : Fault) : Except Fault Effect :=
  return { output := .one (← fill d.errorMessage vars), course := ← s.onward id "error",
           changes := leadReset ++
             [("lead_data", .object captured), ("lead_error", .text f.report)],
           metadata := [("handle", .text "error")] }

/-- The lead as far as it goes without a fault; the effect when it is known already. -/
def settleLead (d : Flow.LeadCapture) (captured : Fields) : Action (Option Effect) := do
  if ← isKnown s d captured then return some (← leadKnown s id vars d captured)
  keepLead s vars d captured
  return none

/-- All fields are answered. -/
def finishLead (d : Flow.LeadCapture) (captured : Fields) : Action Effect := do
  let settled : Except Fault (Option Effect) ←
    tryCatch (do return .ok (← settleLead s id vars d captured)) fun f => return .error f
  match settled with
  | .error f => leadFailed s id vars d captured f
  | .ok (some effect) => return effect
  | .ok none => leadSaved s id vars d captured

/-- The capture begins. -/
def beginLead (d : Flow.LeadCapture) (first : String) : Except Fault Effect := do
  let question ← fill (d.questionFor first) vars
  let intro ← fill d.introMessage vars
  return { output := .one (if intro = "" then question else intro ++ "\n\n" ++
    question), course := .wait,
           changes := [("lead_capture_node", .text id), ("lead_capture_index", .int 0),
             ("lead_capture_data", .object []), ("lead_capture_field", .text first)] }

/-- The field at a cursor; cursors below zero count from the end. -/
def fieldAt (fields : List String) (i : Int) : Except Fault String :=
  if i < -(Number.twoTo 63 : Int) then .error .indexBeyondLists
  else
    let place := if i < 0 then i + fields.length else i
    match if place < 0 then none else fields[place.toNat]? with
    | some f => .ok f
    | none => .error .indexOutOfRange

/-- The cursor of the capture that is under way at this node. -/
def cursor? : Option Int :=
  match vars.get? "lead_capture_node", (vars.get? "lead_capture_index").bind Value.asWhole? with
  | some node, some i => if node.same (.text id) then some i else none
  | _, _ => none

/-- The fields captured so far. -/
def capturedSoFar : Except Fault Fields :=
  match vars.get? "lead_capture_data" with
  | none => .ok []
  | some v =>
    if !v.isTruthy then .ok []
    else match v with
      | .object fields => .ok fields
      | v => .error (.notMapping v.kindWord)

/-- The answer to the field at the cursor. -/
def answerLead (d : Flow.LeadCapture) (fields : List String) (i : Int)
    (field question answer : String) :
    Action Effect := do
  if !Answer.fieldTest field answer then
    return { output := .one ("Entrada inválida para " ++ field ++ ". " ++
      question), course := .wait,
             metadata := [("validation_failed", .text field)] }
  let captured := (← capturedSoFar vars).put field (.text answer)
  if i + 1 < fields.length then
    let nextField ← fieldAt fields (i + 1)
    return { output := .one (← fill (d.questionFor nextField) vars), course := .wait,
             changes := [("lead_capture_index", .int (i + 1)),
               ("lead_capture_data", .object captured), ("lead_capture_field", .text nextField)] }
  else finishLead s id vars d captured

/-- A node that captures a lead. -/
def runLeadCapture (d : Flow.LeadCapture) (answer : Option String) : Action Effect := do
  match d.enabledFields with
  | [] => throw (.stated "lead capture has no enabled fields")
  | first :: rest =>
    let fields := first :: rest
    match cursor? id vars with
    | none => beginLead id vars d first
    | some i =>
      if (fields.length : Int) ≤ i then throw (.stated "lead capture cursor out of range")
      let field ← fieldAt fields i
      let question ← fill (d.questionFor field) vars
      match answer with
      | none => return { output := .one question, course := .wait }
      | some a => answerLead s id vars d fields i field question a

end Parley.Step
