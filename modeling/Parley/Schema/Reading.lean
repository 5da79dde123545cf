import Parley.Number.Digits
import Parley.Number.Reading
import Parley.Schema.Checked
import Parley.Value.Basic

/-!
# Parts of documents

Readers for the parts that documents are made of. Numbers and truth values are also taken from texts
that denote them, and whole numbers from numbers without a fraction.

A field of a block goes by the name that designers write, and may as well be given by its plain
name; of the two the first counts.
-/

namespace Parley.Schema

/-- A reader of a part. -/
abbrev Reader (α : Type) := Value → Checked α

/-- A text. -/
def text : Reader String
  | .text s => .ok s
  | _ => .refuse .notText

/-- The whole number that a binary64 number is, as long as it fits 64 bits. -/
def intOfFloat (x : Binary64) : Checked Int :=
  match x.truncate? with
  | none => .refuse .notFinite
  | some n =>
    if !x.isIntegral then .refuse .fractionalInt
    else if -(Number.twoTo 63 : Int) ≤ n && n < Number.twoTo 63 then .ok n
    else .refuse .oversizedInt

/-- A whole number. -/
def int : Reader Int
  | .int n => .ok n
  | .bool b => .ok (if b then 1 else 0)
  | .float x => intOfFloat x
  | .text s =>
    match Number.readIntField s with
    | .value n => .ok n
    | .tooLong => .refuse .oversizedInt
    | .malformed => .refuse .unreadableInt
  | _ => .refuse .notInt

/-- A number. -/
def float : Reader Binary64
  | .float x => .ok x
  | .int n =>
    match Binary64.ofInt? n with
    | some x => .ok x
    | none => .refuse .notFloat
  | .bool b => .ok (if b then Binary64.round false 1 1 else Binary64.zero)
  | .text s =>
    match Number.readField? s with
    | some x => .ok x
    | none => .refuse .unreadableFloat
  | _ => .refuse .notFloat

/-- The truth value that a whole number stands for. -/
def boolOfInt (n : Int) : Checked Bool :=
  if n = 0 then .ok false else if n = 1 then .ok true else .refuse .unclearBool

/-- The words for true. -/
def trueWords : List String := ["1", "on", "t", "true", "y", "yes"]

/-- The words for false. -/
def falseWords : List String := ["0", "off", "f", "false", "n", "no"]

/-- A truth value. -/
def bool : Reader Bool
  | .bool b => .ok b
  | .int n => boolOfInt n
  | .float x =>
    match intOfFloat x with
    | .ok n => boolOfInt n
    | .refused _ => .refuse .notBool
  | .text s =>
    let word := s.map Number.asciiLower
    if trueWords.contains word then .ok true
    else if falseWords.contains word then .ok false
    else .refuse .unclearBool
  | _ => .refuse .notBool

/-- Any value. -/
def any : Reader Value := .ok

/-- Null, or a part. -/
def nullable {α : Type} (read : Reader α) : Reader (Option α)
  | .null => .ok none
  | v => (read v).map some

/-- The items of a list from number `i` on. -/
def items {α : Type} (read : Reader α) : Nat → List Value → Checked (List α)
  | _, [] => .ok []
  | i, v :: rest => List.cons <$> (read v).under (Number.natText i) <*> items read (i + 1) rest

/-- A list. -/
def list {α : Type} (read : Reader α) : Reader (List α)
  | .list vs => items read 0 vs
  | _ => .refuse .notList

/-- The values of entries. -/
def entries {α : Type} (read : Reader α) : List (String × Value) → Checked (Entries α)
  | [] => .ok []
  | (k, v) :: rest =>
    List.cons <$> ((read v).under k).map (Prod.mk k) <*> entries read rest

/-- Named values of one kind. -/
def object {α : Type} (read : Reader α) : Reader (Entries α)
  | .object fields => entries read fields
  | _ => .refuse .notObject

/-- The two names of a field: the one that designers write, and the plain one. -/
structure Key where
  authored : String
  plain : String

/-- A field with one name. -/
def Key.only (name : String) : Key := ⟨name, name⟩

/-- The value of a field. -/
def Key.get? (k : Key) (fields : Fields) : Option Value :=
  (fields.get? k.authored).or (fields.get? k.plain)

/-- A field that must be given. -/
def required {α : Type} (fields : Fields) (k : Key) (read : Reader α) : Checked α :=
  match k.get? fields with
  | some v => (read v).under k.authored
  | none => (Checked.refuse .missing).under k.authored

/-- A field that has a value of its own when it is not given. -/
def optional {α : Type} (fields : Fields) (k : Key) (read : Reader α) (default : α) : Checked α :=
  match k.get? fields with
  | some v => (read v).under k.authored
  | none => .ok default

/-- A block of the named kind. -/
def block {α : Type} (name : String) (read : Fields → Checked α) : Reader α
  | .object fields => read fields
  | _ => .refuse (.notBlock name)

end Parley.Schema
