import Parley.Fault
import Parley.Value.Basic

/-!
# Access to entries

Values are asked for entries that they must have. Values of other kinds, and objects without the
entry, are faults. So is a document of loosely typed values that nest too deep (`written`).
-/

namespace Parley.Value

/-- The entries of an object; `asked` is what values of other kinds lack. -/
def entriesFor (asked : String) (v : Value) : Except Fault Fields :=
  match v with
  | .object fields => .ok fields
  | v => .error (.noAttribute v.kindWord asked)

/-- The entry of an object under a name. -/
def entry (v : Value) (name : String) : Except Fault Value :=
  match v with
  | .object fields =>
    match Entries.get? fields name with
    | some x => .ok x
    | none => .error (.missingKey (Text.quoted name))
  | v => .error (.notSubscriptable v.kindWord)

/-- A document that is written if the values that it holds can be. -/
def written (fits : Bool) (document : Value) : Except Fault Value :=
  if fits then .ok document else .error .tooDeep

/-- An entry is there just when it is found. -/
theorem entry_eq_ok {v : Value} {name : String} {x : Value} :
    v.entry name = .ok x ↔ v.field? name = some x := by
  cases v with
  | object fields => simp only [entry, field?, asObject?, Option.bind]; split <;> simp_all
  | _ => simp [entry, field?, asObject?]

end Parley.Value
