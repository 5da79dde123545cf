import Parley.Text.Bases

/-!
# Bytes in texts

Bytes that are read as text, and characters that are written as escapes of their bytes.
-/

/-!
## Text from bytes

Bytes are read as UTF-8. Bytes that begin no character, and characters that are broken off, are each
read as one replacement character. Main statement: bytes below 128 are read one by one
(`decode_ascii`).
-/

namespace Parley.Text.Utf8

/-- What stands for bytes that are no character. -/
def replacement : Char := '\ufffd'

/-- A character whose last bytes are still to come. -/
structure Begun where
  /-- How many bytes are to come. -/
  owed : Nat
  /-- The range of the next byte. -/
  low : Nat := 0x80
  high : Nat := 0xbf
  /-- The bits so far. -/
  bits : Nat

/-- The character that a first byte begins, when it begins one of several bytes. -/
def begun? (b : Nat) : Option Begun :=
  if 0xc2 ≤ b ∧ b ≤ 0xdf then some ⟨1, 0x80, 0xbf, b - 0xc0⟩
  else if b = 0xe0 then some ⟨2, 0xa0, 0xbf, 0⟩
  else if b = 0xed then some ⟨2, 0x80, 0x9f, 0xd⟩
  else if 0xe1 ≤ b ∧ b ≤ 0xef then some ⟨2, 0x80, 0xbf, b - 0xe0⟩
  else if b = 0xf0 then some ⟨3, 0x90, 0xbf, 0⟩
  else if b = 0xf4 then some ⟨3, 0x80, 0x8f, 4⟩
  else if 0xf1 ≤ b ∧ b ≤ 0xf3 then some ⟨3, 0x80, 0xbf, b - 0xf0⟩
  else none

/-- Read a byte where a character may begin. -/
def first (b : Nat) : List Char × Option Begun :=
  if b < 0x80 then ([Char.ofNat b], none)
  else match begun? b with
    | some p => ([], some p)
    | none => ([replacement], none)

/-- Read one more byte. -/
def next : Option Begun → Nat → List Char × Option Begun
  | none, b => first b
  | some p, b =>
    if p.low ≤ b ∧ b ≤ p.high then
      let bits := p.bits * 64 + (b - 0x80)
      if p.owed ≤ 1 then ([Char.ofNat bits], none)
        else ([], some { owed := p.owed - 1, bits := bits })
    else
      let (cs, p) := first b
      (replacement :: cs, p)

/-- The text of bytes, of which some may have been read. -/
def decodeFrom : Option Begun → List Nat → List Char
  | none, [] => []
  | some _, [] => [replacement]
  | p, b :: rest =>
    let (cs, p) := next p b
    cs ++ decodeFrom p rest

/-- The text of bytes. -/
def decode (bytes : List Nat) : List Char := decodeFrom none bytes

/-- The bytes of a character. -/
def bytes (c : Char) : List Nat := (String.utf8EncodeChar c).map UInt8.toNat

/-- Bytes of ASCII are their characters. -/
theorem decode_ascii {bytes : List Nat} (h : ∀ b ∈ bytes, b < 0x80) :
    decode bytes = bytes.map Char.ofNat := by
  induction bytes with
  | nil => rfl
  | cons b rest ih =>
    have hb : b < 0x80 := h b (by simp)
    have later := ih fun c hc => h c (by simp [hc])
    rw [decode] at later ⊢
    simp [decodeFrom, next, first, hb, later]

end Parley.Text.Utf8

/-!
## Percent escapes

Characters of a text written as escapes of their bytes (`%C3%A7`), and escapes read back. A percent
sign that begins no escape stands for itself. Main statement: a text of which all is safe is its own
form (`encode_eq_self`).
-/

namespace Parley.Text.Percent

/-- The escapes of a character. -/
def escape (c : Char) : List Char :=
  (Utf8.bytes c).flatMap fun b => '%' :: (hex 2 b).map Char.toUpper

/-- A text whose characters are escaped unless they are safe. -/
def encode (safe : Char → Bool) (cs : List Char) : List Char :=
  cs.flatMap fun c => if safe c then [c] else escape c

/-- The bytes that a text with escapes stands for. -/
def bytes : List Char → List Nat
  | [] => []
  | '%' :: a :: b :: rest =>
    match hexDigit? a, hexDigit? b with
    | some a, some b => (a * 16 + b) :: bytes rest
    | _, _ => Utf8.bytes '%' ++ bytes (a :: b :: rest)
  | c :: rest => Utf8.bytes c ++ bytes rest

/-- The text that a text with escapes stands for. -/
def decode (s : String) : String := String.ofList (Utf8.decode (bytes s.toList))

/-- Safe characters are not escaped. -/
theorem encode_eq_self {safe : Char → Bool} {cs : List Char} (h : ∀ c ∈ cs, safe c = true) :
    encode safe cs = cs := by
  induction cs with
  | nil => rfl
  | cons c rest ih =>
    have later := ih fun d hd => h d (by simp [hd])
    rw [encode] at later ⊢
    simp [h c (by simp), later]

end Parley.Text.Percent
