import Parley.Step.Dialogue
import Parley.Value.Access

/-!
# Nodes that look into contracts

A search finds contracts by what is known of the contact. Several contracts may be put to the
contact for a choice; they are kept in the variables until one is chosen. Variables can be written
by other nodes too, so what is kept is read with care: values that are no list of objects are faults
of their own.
-/

namespace Parley.Step

open Template (fill)

variable (s : Setting) (id : String) (vars : Fields)

/-- How many items a value has. -/
def sizeOf : Value → Except Fault Nat
  | .list items => .ok items.length
  | .text t => .ok t.length
  | .object fields => .ok fields.length
  | v => .error (.noLength v.kindWord)

/-- The item of a value at an index within its size; objects have none. -/
def itemAt (v : Value) (i : Nat) : Except Fault Value :=
  match v with
  | .object _ => .error (.missingKey (Number.natText i))
  | v => do
    match (← itemsOf v)[i]? with
    | some item => return item
    | none => throw .indexOutOfRange

/-- A field of an object as text; nothing when it is missing. -/
def fieldText (fields : Fields) (name : String) : Except Fault String :=
  ((fields.get? name).getD (.text "")).plain

/-- A contract on one line. -/
def contractLine (contract : Value) : Except Fault String := do
  let fields ← contract.entriesFor "get"
  return (← fieldText fields "address") ++ " - " ++ (← fieldText fields "status")

/-- The contracts below a message, numbered. -/
def contractList (message : String) (contracts : Value) : Except Fault String := do
  let lines ← (← itemsOf contracts).mapM contractLine
  return message ++ "\n\n" ++ "\n".intercalate (numbered lines)

/-- A contract was found, or chosen among several. -/
def contractFound (d : Flow.ContractSearch) (contract : Value) (count : Nat) :
    Except Fault Effect := do
  let fields ← contract.entriesFor "items"
  let named : Fields := fields.map fun e => ("contract_" ++ e.1, e.2)
  let get := fun name => (fields.get? name).getD (.text "")
  let changes := (Entries.ofPairs named).update [("contract_id", get "id"),
    ("contract_address", get "address"), ("contract_status", get "status"),
    ("contract_locked", .bool d.lockContract), ("contracts_found", .int count),
    ("pending_contracts", .null), ("identify_contract_node", .null)]
  return { course := ← s.onward id "found", changes := changes,
           metadata := [("handle", .text "found")] }

/-- What contracts are looked up by. -/
def lookupValue (contact : Contact) (d : Flow.ContractSearch) : Except Fault String :=
  if d.variableName != "" then displayOf vars d.variableName
  else if d.identifyBy = "phone" && contact.phone != "" then .ok contact.phone
  else displayOf vars d.identifyBy

/-- The contracts that wait for a choice at this node. -/
def pending? : Option Value :=
  match vars.get? "pending_contracts", vars.get? "identify_contract_node" with
  | some v, some node => if v.isTruthy && node.same (.text id) then some v else none
  | _, _ => none

/-- A choice among the contracts that wait. -/
def chooseContract (d : Flow.ContractSearch) (message : String) (waiting : Value)
    (answer : Option String) :
    Except Fault Effect := do
  let chosen : Option Nat ← match answer with
    | none => pure none
    | some a =>
      if Text.isDigitText a then do
        let n ← wholeOf a
        if n = 0 then pure none
        else pure (if n ≤ (← sizeOf waiting) then some (n - 1) else none)
      else pure none
  match chosen with
  | some i => contractFound s id d (← itemAt waiting i) (← sizeOf waiting)
  | none => return { output := .one (← contractList message waiting), course := .wait }

/-- What the back office finds. -/
def findContracts (d : Flow.ContractSearch) (value : String) : Action Value := do
  if value = "" then return .list []
  needs s.team.backend "no contract lookup backend configured"
  tryCatch (s.consult (.findContracts d.identifyBy value)) fun f =>
    throw (.stated ("contract lookup failed: " ++ f.message))

/-- What follows when contracts were looked up: none, several to choose from, or one. -/
def settleSearch (d : Flow.ContractSearch) (message : String) (contracts : Value) :
    Except Fault Effect := do
  if !contracts.isTruthy then
    return { output := .one (← fill d.notFoundMessage vars), course := ← s.onward id "not_found",
             changes := [("contracts_found", .int 0)], metadata := [("handle", .text "not_found")] }
  let count ← sizeOf contracts
  if 1 < count && d.askForSelection then
    return { output := .one (← contractList message contracts), course := .wait,
             changes := [("pending_contracts", contracts), ("identify_contract_node", .text id)] }
  else contractFound s id d (← itemAt contracts 0) count

/-- A node that looks for contracts. -/
def runContractSearch (contact : Contact) (d : Flow.ContractSearch) (answer : Option String) :
    Action Effect := do
  let message ← fill d.selectionMessage vars
  match pending? id vars with
  | some waiting => chooseContract s id d message waiting answer
  | none => settleSearch s id vars d message (← findContracts s d (← lookupValue vars contact d))

/-- The type of a client without one of its own. -/
def newClient : Value := .text "novo"

/-- The type that the back office has for a contract. -/
def recordedType (contract : Value) : Action Value := do
  let found ← tryCatch (do s.consult (.clientType (← contract.plain))) fun _ => pure Value.null
  return if found.isTruthy then found else newClient

/-- The type of a client as its contract tells it. -/
def clientTypeOf (d : Flow.ClientTag) : Action Value := do
  let recorded := (vars.get? ("contract_" ++ d.contractField)).getD .null
  if recorded.isTruthy then return .text (← recorded.plain)
  let contract := (vars.get? "contract_id").getD .null
  if contract.isTruthy && s.team.backend then recordedType s contract else return newClient

/-- A client tag node. -/
def runClientTag (d : Flow.ClientTag) : Action Effect := do
  let tag : Value ←
    if d.autoDetectFromContract || d.clientTagType = "from_contract" then clientTypeOf s vars d
    else if d.clientTagType = "custom" then pure (.text (← fill d.customTag vars))
    else pure (.text d.clientTagType)
  let current := (vars.get? "client_type").getD .null
  let value := if d.action = "remove" then if current.same tag then .text "" else current else tag
  return { course := ← s.onward id "",
           changes := [("client_type", value), ("client_tag_action", .text d.action)] }

end Parley.Step
