/-!
# Classes of characters

A character class is given as an ascending list of inclusive ranges of code points, or by a test.
The blanks are the white-space characters of Unicode with the four information separators; texts are
trimmed of them at both ends.
-/

namespace Parley.Text

/-- `n` lies in one of the ranges, which ascend. -/
def inRanges : List (Nat × Nat) → Nat → Bool
  | [], _ => false
  | (lo, hi) :: rest, n => if n < lo then false else n ≤ hi || inRanges rest n

/-- Membership names the range. -/
theorem exists_range_of_inRanges {rs : List (Nat × Nat)} {n : Nat} (h : inRanges rs n = true) :
    ∃ r ∈ rs, r.1 ≤ n ∧ n ≤ r.2 := by
  induction rs with
  | nil => simp [inRanges] at h
  | cons r rest ih =>
    obtain ⟨lo, hi⟩ := r
    simp only [inRanges] at h
    split at h
    · simp at h
    · rcases Bool.or_eq_true_iff.mp h with h | h
      · exact ⟨(lo, hi), by simp, by simpa using Nat.not_lt.mp ‹_›, by simpa using h⟩
      · obtain ⟨r, hr, hb⟩ := ih h
        exact ⟨r, by simp [hr], hb⟩

/-- White space: the ASCII blanks and separators and the Unicode spaces. The zero-width space is
none. -/
def isBlank (c : Char) : Bool :=
  let n := c.toNat
  (9 ≤ n && n ≤ 13) || (0x1c ≤ n && n ≤ 0x20) || n == 0x85 || n == 0xa0 || n == 0x1680 ||
    (0x2000 ≤ n && n ≤ 0x200a) || n == 0x2028 || n == 0x2029 || n == 0x202f ||
      n == 0x205f || n == 0x3000

/-- `cs` without its leading and trailing characters of the class `p`. -/
def stripBy (p : Char → Bool) (cs : List Char) : List Char :=
  ((cs.dropWhile p).reverse.dropWhile p).reverse

/-- The text without blanks at its ends. -/
def strip (s : String) : String := String.ofList (stripBy isBlank s.toList)

/-- Core's white space is blank. -/
theorem isBlank_of_isWhitespace {c : Char} (h : c.isWhitespace = true) : isBlank c = true := by
  simp only [Char.isWhitespace, Bool.or_eq_true, decide_eq_true_eq] at h
  rcases h with ((rfl | rfl) | rfl) | rfl <;> decide

/-- The first text occurs in the second. -/
def occursIn (pattern cs : List Char) : Bool :=
  pattern.isPrefixOf cs ||
    match cs with
    | [] => false
    | _ :: rest => occursIn pattern rest

/-- `part` occurs in `whole`, code point for code point. -/
def contains (part whole : String) : Bool := occursIn part.toList whole.toList

end Parley.Text
