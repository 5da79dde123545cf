/-!
# Texts in plain letters

A text beyond ASCII written in ASCII: its plain characters, a hyphen, and then its other characters,
the least first, each by the distance from the one before, counted over the places where it could
stand. Distances are numbers in base thirty-six whose last digit lies below a threshold. The
thresholds follow a bias, which adapts to the distances seen.
-/

namespace Parley.Text.Punycode

/-- A digit of base thirty-six: a letter, then a decimal digit. -/
def digit (n : Nat) :
    Char := if n < 26 then Char.ofNat ('a'.toNat + n) else Char.ofNat ('0'.toNat + (n - 26))

/-- A number in digits of base thirty-six whose last digit is below its threshold. -/
def digits (bias : Nat) : Nat → Nat → Nat → List Char
  | 0, _, _ => []
  | fuel + 1, k, n =>
    let threshold := if k ≤ bias then 1 else if bias + 26 ≤ k then 26 else k - bias
    if n < threshold then [digit n]
    else digit (threshold + (n - threshold) % (36 - threshold)) ::
      digits bias fuel (k + 36) ((n - threshold) / (36 - threshold))

/-- The number divided until it is small, and how often. -/
def reduce : Nat → Nat → Nat × Nat
  | 0, n => (0, n)
  | fuel + 1, n =>
    if 455 < n then
      let (k, n) := reduce fuel (n / 35)
      (k + 36, n)
    else (0, n)

/-- The next bias. -/
def adapt (delta count : Nat) (first : Bool) : Nat :=
  let delta := if first then delta / 700 else delta / 2
  let (k, delta) := reduce delta (delta + delta / count)
  k + 36 * delta / (delta + 38)

/-- How far letters stand apart is written at every occurrence of the letter in turn. -/
def places (letter : Nat) :
    List Nat → (delta bias handled basic : Nat) → List Char × Nat × Nat × Nat
  | [], delta, bias, handled, _ => ([], delta, bias, handled)
  | c :: rest, delta, bias, handled, basic =>
    if c < letter then places letter rest (delta + 1) bias handled basic
    else if c = letter then
      let written := digits bias (delta + 1) 36 delta
      let (more, state) := places letter rest 0 (adapt delta (handled + 1) (handled == basic))
        (handled + 1) basic
      (written ++ more, state)
    else places letter rest delta bias handled basic

/-- The letters beyond ASCII, the least first, with their places. -/
def foreign (label : List Nat) (basic : Nat) :
    List Nat → (previous delta bias handled : Nat) → List Char
  | [], _, _, _, _ => []
  | letter :: later, previous, delta, bias, handled =>
    let (written, delta, bias, handled) :=
      places letter label (delta + (letter - previous) * (handled + 1)) bias handled basic
    written ++ foreign label basic later (letter + 1) (delta + 1) bias handled

/-- A text in plain letters. -/
def encode (cs : List Char) : List Char :=
  let plain := cs.filter fun c => c.toNat < 128
  let label := cs.map Char.toNat
  let letters := ((label.filter (128 ≤ ·)).mergeSort (· ≤ ·)).eraseReps
  (if plain.isEmpty then [] else plain ++ ['-']) ++
    foreign label plain.length letters 128 0 72 plain.length

end Parley.Text.Punycode
