/-!
# Parts of texts

A text parted by a mark. Main statement: the parts put together again, with the mark between them,
are the text (`intercalate_splitAt`).
-/

namespace Parley.Text

/-- The parts of a text between the marks; there is always one. -/
def splitAt (mark : Char) : List Char → List (List Char)
  | [] => [[]]
  | c :: rest =>
    match splitAt mark rest with
    | [] => [[c]]
    | part :: parts => if c = mark then [] :: part :: parts else (c :: part) :: parts

/-- There is always a part, be it empty. -/
theorem splitAt_ne_nil (mark : Char) (cs : List Char) : splitAt mark cs ≠ [] := by
  cases cs with
  | nil => simp [splitAt]
  | cons c rest =>
    unfold splitAt
    split
    · simp
    · split <;> simp

/-- The parts with the mark between them are the text. -/
theorem intercalate_splitAt (mark : Char) (cs : List Char) :
    [mark].intercalate (splitAt mark cs) = cs := by
  induction cs with
  | nil => rfl
  | cons c rest ih =>
    unfold splitAt
    split
    · rename_i h
      exact absurd h (splitAt_ne_nil mark rest)
    · rename_i part parts h
      rw [h] at ih
      split
      · rename_i hc
        subst hc
        rw [← ih]
        simp [List.intercalate, List.intersperse]
      · rw [← ih]
        cases parts <;> simp [List.intercalate, List.intersperse]

end Parley.Text

/-!
## Parts replaced

All occurrences of a part of a text give way to another text; they are found from left to right and
do not overlap. Main statement: a text without the first character of the part stays as it is
(`replace_of_not_mem`).
-/

namespace Parley.Text

/-- A text with the part replaced, after so many characters that are passed over. -/
def replaceFrom (part new : List Char) : Nat → List Char → List Char
  | _, [] => []
  | passed + 1, _ :: rest => replaceFrom part new passed rest
  | 0, c :: rest =>
    if part.isPrefixOf (c :: rest) then new ++ replaceFrom part new (part.length - 1) rest
    else c :: replaceFrom part new 0 rest

/-- A text with all occurrences of a part replaced. -/
def replace (part new text : String) : String :=
  String.ofList (replaceFrom part.toList new.toList 0 text.toList)

/-- What does not begin in a text is not replaced in it. -/
theorem replaceFrom_of_not_mem {c : Char} {part new cs : List Char} (h : c ∉ cs) :
    replaceFrom (c :: part) new 0 cs = cs := by
  induction cs with
  | nil => rfl
  | cons d rest ih =>
    have hd : c ≠ d := fun e => h (by simp [e])
    have later := ih fun m => h (by simp [m])
    simp [replaceFrom, hd, later]

/-- So it is with texts as such. -/
theorem replace_of_not_mem {c : Char} {part : List Char} (new : String) {text : String}
    (h : c ∉ text.toList) : replace (String.ofList (c :: part)) new text = text := by
  simp [replace, replaceFrom_of_not_mem h]

end Parley.Text
