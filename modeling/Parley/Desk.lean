import Parley.Answer
import Parley.Value.Access
import Parley.Value.Display

/-!
# A back office in memory

A desk keeps contracts, the tables of leads, the leads that were sent on and the tickets of
hand-offs. Contracts are found by a key of the contact, without regard to punctuation or case, and
what is found does not tell the keys. Contracts and leads are values as they were given, so those
that are no objects are faults.

Main statement: a lead that was saved is a duplicate of itself (`checkDuplicate_saveLead`).
-/

namespace Parley

/-- A back office in memory. -/
structure Desk where
  contracts : List Value
  leads : Entries (List Value) := []
  sentLeads : List Value := []
  tickets : List Value := []

namespace Desk

/-- A contract of the sample. -/
def sampleContract (id address status cpf phone email clientType : String) : Value :=
  .object [("id", .text id), ("address", .text address), ("status", .text status),
    ("cpf", .text cpf), ("phone", .text phone), ("email", .text email),
    ("tipo_cliente", .text clientType)]

/-- The contracts of a desk that is given none. -/
def sampleContracts : List Value :=
  [sampleContract "contract-123" "Rua das Flores, 123 - Apto 45" "Ativo" "12345678909" "11987654321"
      "ana.silva@example.com" "inquilino",
    sampleContract "contract-456" "Av. Paulista, 1000 - Sala 12" "Ativo" "98765432100" "11912345678"
      "carlos@example.com" "proprietario",
    sampleContract "contract-789" "Rua Augusta, 500" "Encerrado" "98765432100" "11912345678"
      "carlos@example.com" "proprietario"]

/-- What a contract is found by; it is not told. -/
def isKey (name : String) : Bool := name = "cpf" || name = "phone" || name = "email"

/-- The contract without its keys, when it is found by the wanted key. -/
def found? (identifyBy wanted : String) (contract : Value) : Except Fault (Option Value) := do
  let fields ← contract.entriesFor "get"
  let key ← ((fields.get? identifyBy).getD (.text "")).plain
  return if Answer.lookupKey identifyBy key = wanted then
    some (.object (fields.filter fun e => !isKey e.1)) else none

/-- The contracts of a contact. -/
def findContracts (d : Desk) (identifyBy value : String) : Except Fault (List Value) :=
  let wanted := Answer.lookupKey identifyBy value
  if wanted = "" then .ok []
  else do return (← d.contracts.mapM (found? identifyBy wanted)).filterMap id

/-- The type of the client of the first of the contracts that has the id; null when there is none.
-/
def typeIn (id : String) : List Value → Except Fault Value
  | [] => .ok .null
  | contract :: rest => do
    if (← contract.entry "id").same (.text id) then
      return ((← contract.entriesFor "get").get? "tipo_cliente").getD .null
    else typeIn id rest

/-- The type of the client of a contract. -/
def clientType (d : Desk) (id : String) : Except Fault Value := typeIn id d.contracts

/-- The rows of a table of leads. -/
def table (d : Desk) (name : String) : List Value := (d.leads.get? name).getD []

/-- One of the leads has the value in a field; a missing field has the value null. -/
def anyHas (value : Value) (field : String) : List Value → Except Fault Bool
  | [] => .ok false
  | row :: rest => do
    let fields ← row.entriesFor "get"
    if ((fields.get? field).getD .null).same value then return true else anyHas value field rest

/-- A table has a lead with the value in a field. -/
def checkDuplicate (d : Desk) (value : Value) (field table : String) : Except Fault Bool :=
  anyHas value field (d.table table)

/-- A lead as it is kept. -/
def row (fields : Fields) (source : String) (tags : List String) : Fields :=
  fields.update [("source", .text source), ("tags", .texts tags)]

/-- Keep a lead in a table. -/
def saveLead (d : Desk) (table : String) (fields : Fields) (source : String) (tags : List String) :
    Desk :=
  { d with leads := d.leads.put table (d.table table ++ [.object (row fields source tags)]) }

/-- Send a lead on. -/
def sendLead (d : Desk) (url : String) (fields : Fields) (source : String) (tags : List String) :
    Desk :=
  { d with sentLeads := d.sentLeads ++
    [.object (row (Entries.update [("url", .text url)] fields) source tags)] }

/-- The id of the ticket of a number, which has four digits at least. -/
def ticketId (number : Nat) : String :=
  let digits := Number.natText number
  "T" ++ String.ofList (List.replicate (4 - digits.length) '0') ++ digits

/-- Open a ticket for a hand-off. -/
def createTicket (d : Desk) (target priority reason : String) (metadata : Fields) : Desk × Value :=
  let ticket : Value := .object [("id", .text (ticketId (d.tickets.length + 1))),
    ("target_id", .text target), ("priority", .text priority), ("reason", .text reason),
    ("metadata", .object metadata)]
  ({ d with tickets := d.tickets ++ [ticket] }, ticket)

/-- A lead that is saved is the last row of its table. -/
theorem table_saveLead (d : Desk) (table : String) (fields : Fields) (source : String)
    (tags : List String) :
    (d.saveLead table fields source tags).table table = d.table table ++
    [.object (row fields source tags)] := by
  simp [saveLead, Desk.table, Entries.get?_put]

/-- Where all leads are objects, one more lead is a duplicate of itself. -/
theorem anyHas_append_self {value : Value} {field : String} {rows : List Value} {last : Fields}
    (objects : ∀ r ∈ rows, ∃ fs, r = .object fs)
    (h : ((last.get? field).getD .null).same value = true) :
    anyHas value field (rows ++ [.object last]) = .ok true := by
  induction rows with
  | nil => simp [anyHas, Value.entriesFor, h, bind, Except.bind, pure, Except.pure]
  | cons r rest ih =>
    obtain ⟨fs, rfl⟩ := objects r (by simp)
    have later := ih fun r hr => objects r (by simp [hr])
    simp only [List.cons_append, anyHas, Value.entriesFor, bind, Except.bind, pure, Except.pure,
      later, ite_self]

/-- A lead that was saved is found by the value of any of its fields. -/
theorem checkDuplicate_saveLead (d : Desk) {table field source : String} {fields : Fields}
    {tags : List String} {value : Value} (objects : ∀ r ∈ d.table table, ∃ fs, r = .object fs)
    (h : (((row fields source tags).get? field).getD .null).same value = true) :
    (d.saveLead table fields source tags).checkDuplicate value field table = .ok true := by
  rw [checkDuplicate, table_saveLead]
  exact anyHas_append_self objects h

end Desk
end Parley
