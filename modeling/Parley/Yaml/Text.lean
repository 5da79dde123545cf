import Parley.Yaml.Scalar

/-!
# Texts of YAML

Characters are read together with their columns (`Marked`), since indentation has a meaning. A plain
text goes on over lines that are indented further than what it belongs to; line breaks in plain and
quoted texts fold into blanks. A block text keeps its line breaks or folds them, and its header says
what becomes of the last ones.
-/

namespace Parley.Yaml

/-- Characters with their columns. -/
abbrev Marked := List (Char × Nat)

/-- The characters from a column on. -/
def mark : Nat → List Char → Marked
  | _, [] => []
  | column, c :: rest => (c, column) :: mark (if c = '\n' then 0 else column + 1) rest

/-- A blank or a line break. -/
def isSpace (c : Char) : Bool := c = ' ' || c = '\t' || c = '\n'

/-- What comes first is a space, or nothing comes. -/
def endsToken : Marked → Bool
  | [] => true
  | (c, _) :: _ => isSpace c

/-- The text from the next token on, behind blanks, line breaks and comments, and whether a line
break came before it. -/
def skipFrom (comment crossed : Bool) : Marked → Bool × Marked
  | [] => (crossed, [])
  | (c, column) :: rest =>
    if c = '\n' then skipFrom false true rest
    else if comment || c = ' ' then skipFrom comment crossed rest
    else if c = '#' then skipFrom true crossed rest
    else (crossed, (c, column) :: rest)

/-- The text from the next token on. -/
def skip (cs : Marked) : Bool × Marked := skipFrom false false cs

/-- Line breaks that fold: one is a blank, of several the first is dropped. -/
def fold (breaks : Nat) : List Char :=
  if breaks = 1 then [' '] else List.replicate (breaks - 1) '\n'

/-- Without blanks at the end. -/
def trimEnd (cs : List Char) : List Char := (cs.reverse.dropWhile (· = ' ')).reverse

/-- Characters that end plain texts inside of brackets. -/
def isBracketMark (c : Char) : Bool := [',', '[', ']', '{', '}'].contains c

/-- A plain text ends before this character. -/
def stopsPlain (inBrackets afterBlank : Bool) (c : Char) (rest : Marked) : Bool :=
  c = '\n' || c = '\t' || (c = '#' && afterBlank) ||
    (c = ':' && (endsToken rest || (inBrackets && rest.head?.any fun d => isBracketMark d.1))) ||
    (inBrackets && (c = '?' || isBracketMark c))

/-- The part of a plain text that is on this line. -/
def plainLine (inBrackets afterBlank : Bool) : Marked → List Char × Marked
  | [] => ([], [])
  | (c, column) :: rest =>
    if stopsPlain inBrackets afterBlank c rest then ([], (c, column) :: rest)
    else
      let (cs, rest) := plainLine inBrackets (c = ' ') rest
      (c :: cs, rest)

/-- A plain text may begin with this character. -/
def startsPlain (inBrackets : Bool) (c : Char) (rest : Marked) : Bool :=
  (!isSpace c && !("-?:,[]\x7b\x7d#&*!|>'\"%@\x60".toList.contains c)) ||
    (!endsToken rest && (c = '-' || (!inBrackets && (c = '?' || c = ':'))))

/-- The blanks and line breaks at the front: how many lines break, and what follows. -/
def breaksOf : Marked → Nat × Marked
  | [] => (0, [])
  | (c, column) :: rest =>
    if c = '\n' then
      let (n, rest) := breaksOf rest
      (n + 1, rest)
    else if c = ' ' then breaksOf rest
    else (0, (c, column) :: rest)

/-- The lines on which a plain text goes on, further to the right than column `parent`. -/
def plainMore (inBrackets : Bool) (parent : Int) : Nat → Marked → List Char × Marked
  | 0, cs => ([], cs)
  | fuel + 1, cs =>
    let (breaks, more) := breaksOf cs
    match more with
    | [] => ([], cs)
    | (c, column) :: _ =>
      if breaks = 0 || c = '#' || (!inBrackets && (column : Int) ≤ parent) then ([], cs)
      else
        match plainLine inBrackets true more with
        | ([], _) => ([], cs)
        | (line, rest) =>
          let (lines, rest) := plainMore inBrackets parent fuel rest
          (fold breaks ++ trimEnd line ++ lines, rest)

/-- The blanks and line breaks at the front of a quoted text: kept on one line, folded over several.
-/
def quotedBlanks (cs : Marked) : List Char × Marked :=
  let blanks := (cs.takeWhile fun c => isSpace c.1).map (·.1)
  let breaks := blanks.count '\n'
  (if breaks = 0 then blanks else fold breaks, cs.dropWhile fun c => isSpace c.1)

/-- A text up to its closing single quote; two quotes stand for one. -/
def singleQuoted : Nat → Marked → Except ReadFault (List Char × Marked)
  | 0, _ | _, [] => .error .malformed
  | fuel + 1, ('\'', _) :: rest =>
    match rest with
    | ('\'', _) :: more => (singleQuoted fuel more).map fun r => ('\'' :: r.1, r.2)
    | _ => .ok ([], rest)
  | fuel + 1, (c, column) :: rest =>
    if isSpace c then
      let (blanks, more) := quotedBlanks ((c, column) :: rest)
      (singleQuoted fuel more).map fun r => (blanks ++ r.1, r.2)
    else (singleQuoted fuel rest).map fun r => (c :: r.1, r.2)

/-- The character of a one-letter escape. -/
def escaped? : Char → Option Char
  | '0' => some '\x00'
  | 'a' => some '\x07'
  | 'b' => some '\x08'
  | 't' | '\t' => some '\t'
  | 'n' => some '\n'
  | 'v' => some '\x0b'
  | 'f' => some '\x0c'
  | 'r' => some '\r'
  | 'e' => some '\x1b'
  | ' ' => some ' '
  | '"' => some '"'
  | '\\' => some '\\'
  | '/' => some '/'
  | 'N' => some '\u0085'
  | '_' => some '\u00a0'
  | 'L' => some '\u2028'
  | 'P' => some '\u2029'
  | _ => none

/-- How many hexadecimal digits an escape has. -/
def codeLength? : Char → Option Nat
  | 'x' => some 2
  | 'u' => some 4
  | 'U' => some 8
  | _ => none

/-- The character of a hexadecimal code. -/
def coded? (digits : List Char) : Option Char := do
  let ds ← digits.mapM Text.hexDigit?
  let n := ds.foldl (fun n d => n * 16 + d) 0
  if n.isValidChar then some (Char.ofNat n) else none

/-- The escape after a backslash, and what follows it. -/
def escape (cs : Marked) : Except ReadFault (List Char × Marked) :=
  match cs with
  | [] => .error .malformed
  | (c, _) :: rest =>
    if c = '\n' then
      let blanks := rest.takeWhile fun d => isSpace d.1
      .ok (List.replicate (blanks.countP fun d => d.1 = '\n') '\n', rest.dropWhile fun d =>
        isSpace d.1)
    else
      match escaped? c, codeLength? c with
      | some e, _ => .ok ([e], rest)
      | none, some n =>
        match if (rest.take n).length = n then coded? ((rest.take n).map (·.1)) else none with
        | some e => .ok ([e], rest.drop n)
        | none => .error .malformed
      | none, none => .error .malformed

/-- A text up to its closing double quote. -/
def doubleQuoted : Nat → Marked → Except ReadFault (List Char × Marked)
  | 0, _ | _, [] => .error .malformed
  | _ + 1, ('"', _) :: rest => .ok ([], rest)
  | fuel + 1, ('\\', _) :: rest => do
    let (cs, more) ← escape rest
    return ((← doubleQuoted fuel more).map (cs ++ ·) id)
  | fuel + 1, (c, column) :: rest =>
    if isSpace c then
      let (blanks, more) := quotedBlanks ((c, column) :: rest)
      (doubleQuoted fuel more).map fun r => (blanks ++ r.1, r.2)
    else (doubleQuoted fuel rest).map fun r => (c :: r.1, r.2)

/-- What becomes of the line breaks at the end of a block text. -/
inductive Chomp where
  /-- One is kept. -/
  | clip
  | strip
  | keep
  deriving DecidableEq, Repr

/-- The header of a block text: its chomping, its indentation where that is given, and what follows.
-/
def blockHeader : Chomp → Option Nat → Nat → Marked → Chomp × Option Nat × Marked
  | chomp, width, 0, cs => (chomp, width, cs)
  | chomp, width, left + 1, cs =>
    match cs with
    | ('+', _) :: rest => blockHeader .keep width left rest
    | ('-', _) :: rest => blockHeader .strip width left rest
    | (c, column) :: rest =>
      match Number.digit? c with
      | some d => blockHeader chomp (some d) left rest
      | none => (chomp, width, (c, column) :: rest)
    | [] => (chomp, width, [])

/-- The empty lines in front of an indented line. -/
def blockBreaks (indent : Nat) : Marked → Nat × Marked
  | [] => (0, [])
  | (c, column) :: rest =>
    if c = '\n' then
      let (n, rest) := blockBreaks indent rest
      (n + 1, rest)
    else if c = ' ' && column < indent then blockBreaks indent rest
    else (0, (c, column) :: rest)

/-- The column of the first character that is neither blank nor line break, or a greater one that a
blank line reaches. -/
def deepest : Nat → Marked → Nat
  | best, [] => best
  | best, (c, column) :: rest =>
    if c = ' ' then deepest (max best (column + 1)) rest
    else if c = '\n' then deepest best rest
    else best

/-- The lines of a block text, after empty ones. -/
def blockLines (folded : Bool) (chomp : Chomp) (indent : Nat) :
    Nat → Nat → Marked → List Char × Marked
  | 0, _, cs => ([], cs)
  | fuel + 1, breaks, cs =>
    let blank := cs.head?.any fun c => c.1 = ' ' || c.1 = '\t'
    let line := (cs.takeWhile fun c => c.1 != '\n').map (·.1)
    let rest := cs.dropWhile fun c => c.1 != '\n'
    let ending := if rest.isEmpty then [] else ['\n']
    let (next, more) := blockBreaks indent (rest.drop 1)
    let front := List.replicate breaks '\n' ++ line
    if more.head?.any fun c => c.2 = indent then
      let nextBlank := more.head?.any fun c => c.1 = ' ' || c.1 = '\t'
      let glue := if folded && !blank && !nextBlank
        then (if next = 0 then [' '] else []) else ending
      let (lines, more) := blockLines folded chomp indent fuel next more
      (front ++ glue ++ lines, more)
    else
      let tail := match chomp with
        | .clip => ending
        | .strip => []
        | .keep => ending ++ List.replicate next '\n'
      (front ++ tail, more)

/-- A block text after its mark. -/
def blockText (folded : Bool) (parent : Int) (cs : Marked) :
    Except ReadFault (List Char × Marked) :=
  let (chomp, width, rest) := blockHeader .clip none 2 cs
  let rest := rest.dropWhile fun c => c.1 = ' '
  let rest := if rest.head?.any fun c => c.1 = '#' then rest.dropWhile fun c =>
    c.1 != '\n' else rest
  match rest with
  | (c, _) :: body =>
    if c != '\n' || width = some 0 then .error .malformed
    else
      let least := (max (parent + 1) 1).toNat
      let indent := match width with
        | some w => least + w - 1
        | none => max least (deepest 0 body)
      let (breaks, more) := blockBreaks indent body
      if more.head?.any fun c => c.2 = indent then
        .ok (blockLines folded chomp indent (body.length + 1) breaks more)
      else .ok (if chomp = .keep then List.replicate breaks '\n' else [], more)
  | [] => .ok ([], [])

end Parley.Yaml
