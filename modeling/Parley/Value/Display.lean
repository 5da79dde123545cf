import Parley.Json.Printer

/-!
# Values shown as text

Two ways to show a value. `display` is the text that a variable takes in a message: nothing for
null, `true` and `false`, whole binary64 numbers without a fraction, compact JSON for lists and
objects. `plain` is the text of a value in diagnostics and in stored texts, where nested values are
written as literals (`literal`). Both fail only on whole numbers that are too long to write.
-/

namespace Parley.Value

/-- The text of a variable in a message. -/
def display : Value → Except Fault String
  | .null => .ok ""
  | .bool b => .ok (if b then "true" else "false")
  | .int n => if Number.isTooLong n then .error .tooLongToWrite else .ok (Number.intText n)
  | .float x =>
    match x.isIntegral, x.truncate? with
    | true, some n => .ok (Number.intText n)
    | _, _ => .ok x.text
  | .text s => .ok s
  | v => v.json .compact

mutual

/-- A value written as a literal. -/
def literal : Value → String
  | .null => "None"
  | .bool b => if b then "True" else "False"
  | .int n => Number.intText n
  | .float x => x.text
  | .text s => Text.quoted s
  | .list items => "[" ++ literalItems items ++ "]"
  | .object fields => "\x7b" ++ literalFields fields ++ "\x7d"

/-- The items of a list, with commas. -/
def literalItems : List Value → String
  | [] => ""
  | [v] => literal v
  | v :: rest => literal v ++ ", " ++ literalItems rest

/-- The entries of an object, with commas. -/
def literalFields : List (String × Value) → String
  | [] => ""
  | [(k, v)] => Text.quoted k ++ ": " ++ literal v
  | (k, v) :: rest => Text.quoted k ++ ": " ++ literal v ++ ", " ++ literalFields rest

end

/-- The text of a value in stored texts: a text as itself, any other value as a literal. -/
def plain (v : Value) : Except Fault String :=
  match v with
  | .text s => .ok s
  | v => if v.hasLongInt then .error .tooLongToWrite else .ok v.literal

/-- The JSON text of a value exists exactly when no whole number in it is too long. -/
theorem json_isOk_iff (style : Json.Style) (v : Value) :
    (∃ s, v.json style = .ok s) ↔ v.hasLongInt = false := by
  unfold json
  cases v.hasLongInt <;> simp

/-- The display of a value exists exactly when no whole number in it is too long. -/
theorem display_isOk_iff (v : Value) :
    (∃ s, v.display = .ok s) ↔ v.hasLongInt = false := by
  cases v with
  | null => exact ⟨fun _ => rfl, fun _ => ⟨_, rfl⟩⟩
  | bool b => exact ⟨fun _ => rfl, fun _ => ⟨_, rfl⟩⟩
  | text s => exact ⟨fun _ => rfl, fun _ => ⟨_, rfl⟩⟩
  | int n =>
    simp only [display, hasLongInt]
    cases Number.isTooLong n <;> simp
  | float x =>
    refine ⟨fun _ => rfl, fun _ => ?_⟩
    simp only [display]
    split <;> exact ⟨_, rfl⟩
  | list items => exact json_isOk_iff .compact (.list items)
  | object fields => exact json_isOk_iff .compact (.object fields)

end Parley.Value
