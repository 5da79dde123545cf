import Parley.Text.Word
import Parley.Value.Display

/-!
# Templates

Texts with slots. A slot is a name of word characters between braces. Filling a template goes over
it once, from left to right: a slot whose name is a variable gives way to the display of its value,
and every other character stands for itself, so what is filled in is never looked at again.

Main statements: `flatMap_written_pieces`, the pieces of a text put together again are the text, and
`fill_nil`, without variables a template stays as it is.
-/

namespace Parley.Template

/-- A piece of a template. -/
inductive Piece where
  | char (c : Char)
  | slot (name : List Char)
  deriving DecidableEq, Repr

/-- How a piece is written. -/
def Piece.written : Piece → List Char
  | .char c => [c]
  | .slot name => '{' :: name ++ ['}']

/-- The name of a slot whose opening brace has been read, and the text after the slot. -/
def slot? (cs : List Char) : Option (List Char × List Char) :=
  match cs.takeWhile Text.isWord, cs.dropWhile Text.isWord with
  | c :: name, '}' :: rest => some (c :: name, rest)
  | _, _ => none

/-- A slot is the text that it was read from. -/
theorem eq_of_slot? {cs name rest : List Char} (h : slot? cs = some (name, rest)) :
    cs = name ++ '}' :: rest := by
  unfold slot? at h
  have whole : cs.takeWhile Text.isWord ++ cs.dropWhile Text.isWord = cs :=
    List.takeWhile_append_dropWhile
  split at h
  · rename_i c first after ht hd
    obtain ⟨rfl, rfl⟩ := by simpa using h
    rw [← ht, ← hd, whole]
  · exact absurd h (by simp)

/-- The pieces of a text. -/
def pieces : List Char → List Piece
  | [] => []
  | c :: rest =>
    if c = '{' then
      match _h : slot? rest with
      | some (name, after) => .slot name :: pieces after
      | none => .char c :: pieces rest
    else .char c :: pieces rest
  termination_by cs => cs.length
  decreasing_by
    · have := congrArg List.length (eq_of_slot? _h)
      simp only [List.length_append, List.length_cons] at this ⊢
      omega
    · simp
    · simp

/-- The pieces of a text are all of it. -/
theorem flatMap_written_pieces (cs : List Char) : (pieces cs).flatMap Piece.written = cs := by
  fun_induction pieces cs with
  | case1 => rfl
  | case2 rest name after h ih =>
    rw [List.flatMap_cons, ih, Piece.written, eq_of_slot? h]
    simp
  | case3 rest h ih => rw [List.flatMap_cons, ih, Piece.written, List.singleton_append]
  | case4 c rest hc ih => rw [List.flatMap_cons, ih, Piece.written, List.singleton_append]

/-- What stands for a piece when the variables are known. -/
def Piece.filled (vars : Fields) : Piece → Except Fault (List Char)
  | .char c => .ok [c]
  | .slot name =>
    match vars.get? (String.ofList name) with
    | some v => v.display.map String.toList
    | none => .ok (Piece.slot name).written

/-- The pieces of a template with their slots filled. -/
def fillPieces (vars : Fields) : List Piece → Except Fault (List Char)
  | [] => .ok []
  | p :: rest => do
    let here ← p.filled vars
    let after ← fillPieces vars rest
    return here ++ after

/-- A template with its slots filled. -/
def fill (text : String) (vars : Fields) : Except Fault String :=
  (fillPieces vars (pieces text.toList)).map String.ofList

mutual

/-- A value whose texts are templates, with their slots filled. -/
def fillLeaves (vars : Fields) : Value → Except Fault Value
  | .text s => (fill s vars).map .text
  | .list items => (fillItems vars items).map .list
  | .object fields => (fillFields vars fields).map .object
  | v => .ok v

/-- The items of a list with their slots filled. -/
def fillItems (vars : Fields) : List Value → Except Fault (List Value)
  | [] => .ok []
  | v :: rest => do
    let here ← fillLeaves vars v
    let after ← fillItems vars rest
    return here :: after

/-- Entries with the slots of their values filled; names are no templates. -/
def fillFields (vars : Fields) : List (String × Value) → Except Fault (List (String × Value))
  | [] => .ok []
  | (k, v) :: rest => do
    let here ← fillLeaves vars v
    let after ← fillFields vars rest
    return (k, here) :: after

end

/-- Without variables pieces are filled with themselves. -/
theorem fillPieces_nil (ps : List Piece) : fillPieces [] ps = .ok (ps.flatMap Piece.written) := by
  induction ps with
  | nil => rfl
  | cons p rest ih =>
    cases p with
    | char c => rw [fillPieces, ih]; rfl
    | slot name => rw [fillPieces, ih]; rfl

/-- Without variables a template stays as it is. -/
theorem fill_nil (text : String) : fill text [] = .ok text := by
  rw [fill, fillPieces_nil, flatMap_written_pieces]
  exact congrArg Except.ok String.ofList_toList

end Parley.Template
