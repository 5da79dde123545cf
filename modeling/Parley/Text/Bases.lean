/-!
# Bases of digits

Numbers in base sixteen, and bytes in base sixty-four: letters, digits and two signs, four
characters for three bytes; equal signs fill the last four. Main statements: a hexadecimal digit of
either case has the value of its letter (`hexDigit?_toUpper`, checked on all digits), and every
three bytes, begun or whole, take four characters (`Base64.length_encode`).
-/

namespace Parley.Text

/-- `n` in lower-case hexadecimal, filled with zeros up to `width` digits. -/
def hex (width n : Nat) : List Char :=
  let ds := Nat.toDigits 16 n
  List.replicate (width - ds.length) '0' ++ ds

/-- The value of a hexadecimal digit. -/
def hexDigit? (c : Char) : Option Nat :=
  if '0' ≤ c ∧ c ≤ '9' then some (c.toNat - '0'.toNat)
  else if 'a' ≤ c ∧ c ≤ 'f' then some (c.toNat - 'a'.toNat + 10)
  else if 'A' ≤ c ∧ c ≤ 'F' then some (c.toNat - 'A'.toNat + 10)
  else none

/-- The digits, with the letters in lower case. -/
def hexDigits : List Char :=
  ['0', '1', '2', '3', '4', '5', '6', '7', '8', '9', 'a', 'b', 'c', 'd', 'e', 'f']

/-- A hexadecimal digit may be written in upper case. -/
theorem hexDigit?_toUpper {c : Char} (h : c ∈ hexDigits) : hexDigit? c.toUpper = hexDigit? c := by
  have alike : hexDigits.all (fun c => hexDigit? c.toUpper == hexDigit? c) = true := by decide
  exact eq_of_beq (List.all_eq_true.mp alike c h)

end Parley.Text

namespace Parley.Text.Base64

/-- The character of a number below sixty-four. -/
def digit (n : Nat) : Char :=
  if n < 26 then Char.ofNat ('A'.toNat + n)
  else if n < 52 then Char.ofNat ('a'.toNat + (n - 26))
  else if n < 62 then Char.ofNat ('0'.toNat + (n - 52))
  else if n = 62 then '+' else '/'

/-- The text of bytes. -/
def encode : List Nat → List Char
  | [] => []
  | [a] => [digit (a / 4), digit (a % 4 * 16), '=', '=']
  | [a, b] => [digit (a / 4), digit (a % 4 * 16 + b / 16), digit (b % 16 * 4), '=']
  | a :: b :: c :: rest =>
    digit (a / 4) :: digit (a % 4 * 16 + b / 16) :: digit (b % 16 * 4 + c / 64) :: digit
      (c % 64) :: encode rest

/-- Three bytes, or the rest of them, are written as four characters. -/
theorem length_encode (bytes : List Nat) :
    (encode bytes).length = 4 * ((bytes.length + 2) / 3) := by
  fun_induction encode bytes with
  | case1 => rfl
  | case2 => simp
  | case3 => simp
  | case4 a b c rest ih => simp only [List.length_cons, ih]; omega

end Parley.Text.Base64
