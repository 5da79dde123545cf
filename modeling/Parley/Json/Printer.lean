import Parley.Fault
import Parley.Number.Shortest
import Parley.Value.Basic

/-!
# JSON text of a value

Entries in their order, characters beyond ASCII as themselves, controls as escapes, and the names
`NaN`, `Infinity` and `-Infinity` for the numbers that JSON lacks. A style gives the separators.
Writing fails only on a whole number with more digits than are written (`Value.hasLongInt`).
-/

namespace Parley.Json

/-- The separators of a style. -/
structure Style where
  afterItem : List Char
  afterName : List Char

/-- Without blanks. -/
def Style.compact : Style := ⟨[','], [':']⟩

/-- With a blank after each separator. -/
def Style.spaced : Style := ⟨[',', ' '], [':', ' ']⟩

/-- One character of a JSON string. -/
def escapeChar (c : Char) : List Char :=
  if c = '"' then ['\\', '"']
  else if c = '\\' then ['\\', '\\']
  else if c = '\n' then ['\\', 'n']
  else if c = '\r' then ['\\', 'r']
  else if c = '\t' then ['\\', 't']
  else if c = '\x08' then ['\\', 'b']
  else if c = '\x0c' then ['\\', 'f']
  else if c.toNat < 0x20 then '\\' :: 'u' :: Text.hex 4 c.toNat
  else [c]

/-- A JSON string. -/
def printText (s : String) : List Char := '"' :: s.toList.flatMap escapeChar ++ ['"']

/-- A number of the JSON text. -/
def printFloat : Binary64 → List Char
  | .nan => "NaN".toList
  | .infinite negative => (if negative then "-Infinity" else "Infinity").toList
  | x => x.text.toList

mutual

/-- The characters of a value. -/
def print (st : Style) : Value → List Char
  | .null => "null".toList
  | .bool b => (if b then "true" else "false").toList
  | .int n => (Number.intText n).toList
  | .float x => printFloat x
  | .text s => printText s
  | .list items => '[' :: printItems st items ++ [']']
  | .object fields => '{' :: printFields st fields ++ ['}']

/-- The items of a list with separators between them. -/
def printItems (st : Style) : List Value → List Char
  | [] => []
  | [v] => print st v
  | v :: rest => print st v ++ st.afterItem ++ printItems st rest

/-- The entries of an object with separators between them. -/
def printFields (st : Style) : List (String × Value) → List Char
  | [] => []
  | [(k, v)] => printText k ++ st.afterName ++ print st v
  | (k, v) :: rest => printText k ++ st.afterName ++ print st v ++ st.afterItem ++
      printFields st rest

end
end Parley.Json

namespace Parley.Value

mutual

/-- A whole number with more digits than are written occurs in the value. -/
def hasLongInt : Value → Bool
  | .int n => Number.isTooLong n
  | .list items => hasLongIntItems items
  | .object fields => hasLongIntFields fields
  | _ => false

/-- The same of a list. -/
def hasLongIntItems : List Value → Bool
  | [] => false
  | v :: rest => hasLongInt v || hasLongIntItems rest

/-- The same of entries. -/
def hasLongIntFields : List (String × Value) → Bool
  | [] => false
  | (_, v) :: rest => hasLongInt v || hasLongIntFields rest

end

/-- Items are short enough when each of them is. -/
theorem hasLongIntItems_eq_false {items : List Value} :
    hasLongIntItems items = false ↔ ∀ v ∈ items, v.hasLongInt = false := by
  induction items with
  | nil => simp [hasLongIntItems]
  | cons v rest ih => rw [hasLongIntItems, Bool.or_eq_false_iff, ih, List.forall_mem_cons]

/-- Entries are short enough when each value is. -/
theorem hasLongIntFields_eq_false {fields : List (String × Value)} :
    hasLongIntFields fields = false ↔ ∀ e ∈ fields, e.2.hasLongInt = false := by
  induction fields with
  | nil => simp [hasLongIntFields]
  | cons e rest ih => rw [hasLongIntFields, Bool.or_eq_false_iff, ih, List.forall_mem_cons]

mutual

/-- A dump has the whole numbers of the value. -/
@[simp] theorem hasLongInt_dumped : ∀ v : Value, v.dumped.hasLongInt = v.hasLongInt
  | .null | .bool _ | .int _ | .text _ => rfl
  | .float x => by
    cases h : x.isFinite <;> simp [dumped, hasLongInt, h]
  | .list items => by rw [dumped, hasLongInt, hasLongInt, hasLongIntItems_dumpedItems items]
  | .object fields => by rw [dumped, hasLongInt, hasLongInt, hasLongIntFields_dumpedFields fields]

@[simp] theorem hasLongIntItems_dumpedItems : ∀ items : List Value,
    hasLongIntItems (dumpedItems items) = hasLongIntItems items
  | [] => rfl
  | v :: rest => by
    rw [dumpedItems, hasLongIntItems, hasLongIntItems, hasLongInt_dumped v,
      hasLongIntItems_dumpedItems rest]

@[simp] theorem hasLongIntFields_dumpedFields : ∀ fields : Fields,
    hasLongIntFields (dumpedFields fields) = hasLongIntFields fields
  | [] => rfl
  | (_, v) :: rest => by
    rw [dumpedFields, hasLongIntFields, hasLongIntFields, hasLongInt_dumped v,
      hasLongIntFields_dumpedFields rest]

end

/-- The JSON text of a value. -/
def json (st : Json.Style) (v : Value) : Except Fault String :=
  if v.hasLongInt then .error .tooLongToWrite else .ok (String.ofList (Json.print st v))

end Parley.Value
