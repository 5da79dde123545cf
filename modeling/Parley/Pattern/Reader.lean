import Parley.Number.Digits
import Parley.Pattern.Basic
import Parley.Text.Word

/-!
# Patterns read from text

The reader goes over the text once, character by character or escape by escape. It keeps the groups
opened so far with the widths of those that are closed, so that a recalled group is known to be
closed and what stands before a place is looked back for only when its length is fixed.

A pattern is refused when it is malformed, and when a repetition counts further than is allowed or
with more digits than are read. Whatever is met first in the text counts; a backslash that ends the
text is met together with the token before it.
-/

namespace Parley.Pattern

/-- Why a text is no pattern. -/
inductive ReadFault where
  | malformed
  /-- A count is `repeatLimit` or more. -/
  | countTooLarge
  /-- A count has more digits than are read. -/
  | countTooLong (digits : Nat)
  deriving DecidableEq, Repr

/-- The first count that is refused. -/
def repeatLimit : Nat := Number.twoTo 32 - 1

/-- A character, or a backslash with the character after it. -/
inductive Token where
  | plain (c : Char)
  | escaped (c : Char)
  deriving DecidableEq, Repr

/-- The tokens of a text, and whether a lone backslash follows them. -/
def tokens : List Char → List Token × Bool
  | [] => ([], false)
  | ['\\'] => ([], true)
  | '\\' :: c :: rest => (tokens rest).map (.escaped c :: ·) id
  | c :: rest => (tokens rest).map (.plain c :: ·) id

/-- What the reader knows between two tokens. -/
structure Source where
  rest : List Token
  /-- A lone backslash ends the text. -/
  broken : Bool := false
  /-- The groups opened so far, the first one first, with their widths once they are closed. -/
  groups : List (Option Width) := []
  names : List (List Char × Nat) := []
  /-- The number of groups opened before the outermost look-behind that is being read. -/
  behind : Option Nat := none
  /-- The greatest group number that a condition asks for. -/
  asked : Nat := 0
  options : Options := {}
  /-- Blanks and comments are passed over from here on. -/
  spaced : Bool := false

/-- A computation of the reader. -/
abbrev Read := StateT Source (Except ReadFault)

namespace Read

/-- The text is no pattern. -/
def refuse {α : Type} : Read α := throw .malformed

/-- The next token, which is left in place. -/
def peek : Read (Option Token) := return (← get).rest.head?

/-- Go on behind some tokens. -/
def skip (n : Nat) : Read Unit := do
  let s ← get
  let rest := s.rest.drop n
  if s.broken && rest.isEmpty then refuse
  set { s with rest := rest }

/-- The next token, if there is one. -/
def next? : Read (Option Token) := do
  let t ← peek
  skip 1
  return t

/-- The next character or escape, which has to be there. -/
def next : Read Token := do
  match ← next? with
  | some t => return t
  | none => refuse

/-- Take the character if it comes next. -/
def accept (c : Char) : Read Bool := do
  if (← peek) = some (.plain c) then
    let _ ← next?
    return true
  else return false

/-- The character has to come next. -/
def expect (c : Char) : Read Unit := do
  unless ← accept c do refuse

/-- At most `n` characters of the class. -/
def takeUpTo (n : Nat) (p : Char → Bool) : Read (List Char) := do
  let taken := ((← get).rest.take n).takeWhile fun
    | .plain c => p c
    | .escaped _ => false
  skip taken.length
  return taken.filterMap fun
    | .plain c => some c
    | .escaped _ => none

/-- The characters of a class, as many as there are. -/
def takeAll (p : Char → Bool) : Read (List Char) := do takeUpTo (← get).rest.length p

/-- A name that ends with the character `stop`, which is taken too. -/
def name (stop : Char) : Read (List Char) := do
  let text ← takeAll (· != stop)
  expect stop
  match text with
  | c :: _ =>
    if text.all Text.isWord && !Text.isDecimal c then return text else refuse
  | [] => refuse

end Read

open Read

/-- An octal digit. -/
def isOctal (c : Char) : Bool := '0' ≤ c && c ≤ '7'

/-- A hexadecimal digit's value. -/
def hexValue (c : Char) : Nat :=
  if c ≤ '9' then c.toNat - '0'.toNat else c.toNat % 32 + 9

/-- A hexadecimal digit. -/
def isHex (c : Char) : Bool :=
  ('0' ≤ c && c ≤ '9') || ('a' ≤ c && c ≤ 'f') || ('A' ≤ c && c ≤ 'F')

/-- The number that digits of a base denote. -/
def ofBase (base : Nat) (ds : List Char) : Nat := ds.foldl (fun acc d => base * acc + hexValue d) 0

/-- A code of exactly `width` hexadecimal digits. -/
def readHex (width : Nat) : Read Nat := do
  let ds ← takeUpTo width isHex
  if ds.length = width && ofBase 16 ds ≤ 0x10ffff then return ofBase 16 ds else refuse

/-- An ASCII letter. -/
def isLetter (c : Char) : Bool := ('a' ≤ c && c ≤ 'z') || ('A' ≤ c && c ≤ 'Z')

/-- The class that an escaped letter names. -/
def categoryOf? : Char → Option Member
  | 'd' => some (.category .digit false)
  | 'D' => some (.category .digit true)
  | 's' => some (.category .blank false)
  | 'S' => some (.category .blank true)
  | 'w' => some (.category .word false)
  | 'W' => some (.category .word true)
  | _ => none

/-- The place that an escaped letter names. -/
def anchorOf? : Char → Option Anchor
  | 'A' => some .textStart
  | 'Z' => some .textEnd
  | 'b' => some .wordEdge
  | 'B' => some .insideWord
  | _ => none

/-- The control character that an escaped letter names. -/
def controlOf? : Char → Option Nat
  | 'a' => some 7
  | 'b' => some 8
  | 't' => some 9
  | 'n' => some 10
  | 'v' => some 11
  | 'f' => some 12
  | 'r' => some 13
  | _ => none

/-- An escape that denotes one character and is no octal number. -/
def readEscapedCode (c : Char) : Read Nat := do
  match controlOf? c, c with
  | some code, _ => return code
  | none, 'x' => readHex 2
  | none, 'u' => readHex 4
  | none, 'U' => readHex 8
  | none, _ => if isLetter c || Number.isDigit c then refuse else return c.toNat

/-- An escape inside a bracketed class. -/
def readMemberEscape (c : Char) : Read Member := do
  match categoryOf? c with
  | some m => return m
  | none =>
    if isOctal c then
      let code := ofBase 8 (c :: (← takeUpTo 2 isOctal))
      if code ≤ 0o377 then return .one code else refuse
    else return .one (← readEscapedCode c)

/-- A member of a bracketed class that is no range, from its first token. -/
def readMember : Token → Read Member
  | .plain c => return .one c.toNat
  | .escaped c => readMemberEscape c

/-- The members of a bracketed class up to its closing bracket. -/
def readMembers : Nat → List Member → Read (List Member)
  | 0, _ => refuse
  | fuel + 1, found => do
    let t ← next
    if t = .plain ']' && !found.isEmpty then return found
    let low ← readMember t
    if ← accept '-' then
      let u ← next
      if u = .plain ']' then return .one '-'.toNat :: low :: found
      match low, ← readMember u with
      | .one lo, .one hi => if hi < lo then refuse else readMembers fuel (.range lo hi :: found)
      | _, _ => refuse
    else readMembers fuel (low :: found)

/-- A bracketed class whose opening bracket has been read. -/
def readClass : Read Node := do
  let negated ← accept '^'
  let members ← readMembers ((← get).rest.length + 1) []
  return .oneOf negated members

/-- The group may be recalled here. -/
def checkGroup (group : Nat) : Read Unit := do
  let s ← get
  match s.groups[group - 1]? with
  | some (some _) =>
    match s.behind with
    | some before => if before < group then refuse
    | none => return
  | _ => refuse

/-- The recall of a numbered group, or an octal code, whose first digit is given. -/
def readNumbered (first : Char) : Read Node := do
  let more ← takeUpTo 1 Number.isDigit
  match more with
  | [second] =>
    if isOctal first && isOctal second then
      match ← takeUpTo 1 isOctal with
      | [third] =>
        let code := ofBase 8 [first, second, third]
        if code ≤ 0o377 then return .oneOf false [.one code] else refuse
      | _ => echoOf [first, second]
    else echoOf [first, second]
  | _ => echoOf [first]
where
  /-- The recall of the group whose number is given by its digits. -/
  echoOf (ds : List Char) : Read Node := do
    let group := ofBase 10 ds
    checkGroup group
    return .echo group

/-- A part of a sequence, with what a repetition sign after it would mean. -/
inductive Part where
  /-- It may be repeated. -/
  | item (n : Node)
  /-- It is a place, which is not repeated. -/
  | place (a : Anchor)
  /-- It is a repetition already. -/
  | repeated (n : Node)

/-- The node of a part. -/
def Part.node : Part → Node
  | .item n => n
  | .place a => .anchor a
  | .repeated n => n

/-- The nodes of a sequence, of which the last comes first. -/
def sequenceOf (parts : List Part) : Node :=
  parts.foldl (fun acc p => .sequence p.node acc) .empty

/-- An escape outside of brackets. -/
def readEscape (c : Char) : Read Part := do
  match categoryOf? c, anchorOf? c with
  | some m, _ => return .item (.oneOf false [m])
  | none, some a => return .place a
  | none, none =>
    if c = '0' then return .item (.oneOf false [.one (ofBase 8 (← takeUpTo 2 isOctal))])
    else if Number.isDigit c then return .item (← readNumbered c)
    else return .item (.oneOf false [.one (← readEscapedCode c)])

/-- The count that digits denote. -/
def readCount (digits : List Char) : Read Nat := do
  if Number.digitLimit < digits.length then throw (.countTooLong digits.length)
  let n := ofBase 10 digits
  if repeatLimit ≤ n then throw .countTooLarge
  return n

/-- The bounds of a repetition in braces whose opening brace has been read; none when the brace
stands for itself. -/
def readBounds? : Read (Option (Nat × Option Nat)) := do
  let saved ← get
  if (← peek) = some (.plain '}') then return none
  let lo ← takeAll Number.isDigit
  let hi ← if ← accept ',' then takeAll Number.isDigit else pure lo
  if ← accept '}' then
    let least ← readCount lo
    if hi.isEmpty then return some (least, none)
    let most ← readCount hi
    if most < least then refuse
    return some (least, some most)
  else
    set saved
    return none

/-- The last part repeated. -/
def repeatLast (least : Nat) (most : Option Nat) : List Part → Read (List Part)
  | .item n :: before => do
    if ← accept '?' then return .repeated (.repetition false least most n) :: before
    else if ← accept '+' then
      return .repeated (.atomic (.repetition true least most (.atomic n))) :: before
    else return .repeated (.repetition true least most n) :: before
  | _ => refuse

/-- The change of the options that a letter makes when it is switched on or off; the last flag tells
blanks apart, which only the reader cares for. -/
def changeOf? (letter : Char) (on : Bool) : Option Change :=
  match letter, on with
  | 'i', _ => some { ignoreCase := some on }
  | 'm', _ => some { lineByLine := some on }
  | 's', _ => some { dotAll := some on }
  | 'x', _ => some {}
  | 'a', true => some { asciiOnly := some true }
  | 'u', true => some { asciiOnly := some false }
  | _, _ => none

/-- Two changes, one after the other. -/
def Change.both (c d : Change) : Change where
  ignoreCase := d.ignoreCase.or c.ignoreCase
  lineByLine := d.lineByLine.or c.lineByLine
  dotAll := d.dotAll.or c.dotAll
  asciiOnly := d.asciiOnly.or c.asciiOnly

/-- The changes of several letters. -/
def changesOf? (letters : List Char) (on : Bool) : Option Change :=
  letters.foldl (fun acc c => acc.bind fun d => (changeOf? c on).map d.both) (some {})

/-- Letters of a change, and whether they are for the whole pattern or for a group. -/
inductive Flags where
  | whole (change : Change) (spaced : Bool)
  | group (change : Change) (spaced : Option Bool)

/-- The letters of a change up to the character that ends them. -/
def readFlags (first : Char) : Read Flags := do
  let on ← if first = '-' then pure [] else do pure (first :: (← takeAll isLetter))
  if on.contains 'a' && on.contains 'u' then refuse
  match changesOf? on true with
  | none => refuse
  | some change =>
    if first != '-' then
      if ← accept ')' then return .whole change (on.contains 'x')
      if ← accept ':' then return .group change (if on.contains 'x' then some true else none)
      expect '-'
    let off ← takeAll isLetter
    expect ':'
    if off.isEmpty || off.any on.contains then refuse
    match changesOf? off false with
    | none => refuse
    | some less =>
      let spaced := if off.contains 'x' then some false else if on.contains 'x'
        then some true else none
      return .group (change.both less) spaced

/-- A comment up to its closing parenthesis. -/
def skipComment : Read Unit := do
  let _ ← takeComment (← get).rest.length
where
  /-- Pass over tokens until a closing parenthesis. -/
  takeComment : Nat → Read Unit
    | 0 => refuse
    | n + 1 => do if (← next) = .plain ')' then return else takeComment n

/-- A comment up to the end of its line. -/
def skipLine : Read Unit := do
  skip (((← get).rest.takeWhile (· != .plain '\n')).length + 1)

/-- A number or name of a group that a condition asks for. -/
def readCondition : Read Nat := do
  let text ← takeAll (· != ')')
  expect ')'
  match text with
  | [] => refuse
  | c :: _ =>
    if Number.isDigit c then
      let group := ofBase 10 text
      if !text.all Number.isDigit || group = 0 || repeatLimit ≤ group then refuse
      modify fun s => { s with asked := max s.asked group }
      match (← get).behind with
      | some _ => checkGroup group
      | none => pure ()
      return group
    else
      match (← get).names.lookup text with
      | some group =>
        match (← get).behind with
        | some _ => checkGroup group
        | none => pure ()
        return group
      | none => refuse

/-- The widths of the groups closed so far. -/
def widths (s : Source) (group : Nat) : Width :=
  match s.groups[group - 1]? with
  | some (some w) => w
  | _ => (0, some 0)

/-- A group with an index opens. -/
def openGroup (name : Option (List Char)) : Read Nat := do
  let s ← get
  let group := s.groups.length + 1
  match name with
  | some text =>
    if (s.names.lookup text).isSome then refuse
    set { s with groups := s.groups ++ [none], names := (text, group) :: s.names }
  | none => set { s with groups := s.groups ++ [none] }
  return group

/-- The group with the index closes over its body. -/
def closeGroup (group : Nat) (body : Node) : Read Unit :=
  modify fun s => { s with groups := s.groups.set (group - 1) (some (body.width (widths s))) }

mutual

/-- Alternatives up to a closing parenthesis or the end; `top` when nothing encloses them. -/
def readChoice : Nat → Bool → Read Node
  | 0, _ => refuse
  | fuel + 1, top => do
    let first ← readSequence fuel top []
    readAlternatives fuel first

/-- The alternatives after the first one. -/
def readAlternatives : Nat → Node → Read Node
  | 0, _ => refuse
  | fuel + 1, first => do
    if ← accept '|' then
      let second ← readSequence fuel false []
      return .choice first (← readAlternatives fuel second)
    else return first

/-- A sequence after the parts read so far; `start` when options for the whole pattern may stand
here. -/
def readSequence : Nat → Bool → List Part → Read Node
  | 0, _, _ => refuse
  | fuel + 1, start, parts => do
    match ← peek with
    | none => return sequenceOf parts
    | some (.plain '|') => return sequenceOf parts
    | some (.plain ')') => return sequenceOf parts
    | some (.escaped c) =>
      let _ ← next?
      -- A blank is passed over only when it is not escaped.
      readSequence fuel start ((← readEscape c) :: parts)
    | some (.plain c) =>
      let _ ← next?
      if (← get).spaced && (c = ' ' || ('\t' ≤ c && c ≤ '\r')) then readSequence fuel start parts
      else if (← get).spaced && c = '#' then
        skipLine
        readSequence fuel start parts
      else
        match c with
        | '[' => readSequence fuel start (.item (← readClass) :: parts)
        | '.' => readSequence fuel start (.item .any :: parts)
        | '^' => readSequence fuel start (.place .lineStart :: parts)
        | '$' => readSequence fuel start (.place .lineEnd :: parts)
        | '?' => readSequence fuel start (← repeatLast 0 (some 1) parts)
        | '*' => readSequence fuel start (← repeatLast 0 none parts)
        | '+' => readSequence fuel start (← repeatLast 1 none parts)
        | '{' =>
          match ← readBounds? with
          | some (least, most) => readSequence fuel start (← repeatLast least most parts)
          | none => readSequence fuel start (.item (.oneOf false [.one c.toNat]) :: parts)
        | '(' =>
          match ← readGroup fuel (start && parts.isEmpty) with
          | some n => readSequence fuel start (.item n :: parts)
          | none => readSequence fuel start parts
        | _ => readSequence fuel start (.item (.oneOf false [.one c.toNat]) :: parts)

/-- What a parenthesis opens; none for a comment and for options of the whole pattern. -/
def readGroup : Nat → Bool → Read (Option Node)
  | 0, _ => refuse
  | fuel + 1, start => do
    if !(← accept '?') then return some (← readCapture fuel none)
    match ← next with
    | .escaped _ => refuse
    | .plain 'P' =>
      if ← accept '<' then return some (← readCapture fuel (some (← name '>')))
      expect '='
      match (← get).names.lookup (← name ')') with
      | some group =>
        checkGroup group
        return some (.echo group)
      | none => refuse
    | .plain ':' => return some (← readBody fuel)
    | .plain '#' =>
      skipComment
      return none
    | .plain '=' => return some (.look 0 false (← readBody fuel))
    | .plain '!' => return some (.look 0 true (← readBody fuel))
    | .plain '<' =>
      let negated ← do
        if ← accept '=' then pure false
        else
          expect '!'
          pure true
      let before := (← get).behind
      modify fun s => { s with behind := s.behind.or (some s.groups.length) }
      let body ← readBody fuel
      modify fun s => { s with behind := before }
      match body.width (widths (← get)) with
      | (lo, some hi) => if lo = hi then return some (.look lo negated body) else refuse
      | _ => refuse
    | .plain '>' => return some (.atomic (← readBody fuel))
    | .plain '(' =>
      let group ← readCondition
      let yes ← readSequence fuel false []
      let no ← if ← accept '|' then readSequence fuel false [] else pure .empty
      expect ')'
      return some (.whether group yes no)
    | .plain c =>
      match ← readFlags c with
      | .whole change spaced =>
        if !start then refuse
        modify fun s => { s with options := s.options.apply change, spaced := s.spaced || spaced }
        return none
      | .group change spaced =>
        let outside := (← get).spaced
        modify fun s => { s with spaced := spaced.getD outside }
        let body ← readBody fuel
        modify fun s => { s with spaced := outside }
        return some (.under change body)

/-- Alternatives and the closing parenthesis. -/
def readBody : Nat → Read Node
  | 0 => refuse
  | fuel + 1 => do
    let body ← readChoice fuel false
    expect ')'
    return body

/-- The body of a group with an index. -/
def readCapture : Nat → Option (List Char) → Read Node
  | 0, _ => refuse
  | fuel + 1, name => do
    let group ← openGroup name
    let body ← readBody fuel
    closeGroup group body
    return .capture group body

end

/-- A whole pattern. -/
def readWhole (fuel : Nat) : Read Pattern := do
  let node ← readChoice fuel true
  let s ← get
  if !s.rest.isEmpty || s.groups.length < s.asked then refuse
  return ⟨s.options, node⟩

/-- The pattern that a text denotes. Every level of the reader takes a token within four calls,
which bounds their nesting. -/
def read (text : String) : Except ReadFault Pattern :=
  match tokens text.toList with
  | ([], true) => .error .malformed
  | (ts, broken) => (readWhole (4 * ts.length + 8)).run' { rest := ts, broken := broken }

end Parley.Pattern
