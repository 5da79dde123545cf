/-!
# Patterns

Regular expressions as data. A pattern is a tree of nodes under options; groups are numbered from 1
in the order of their opening parentheses. `Node.width` bounds the length of what a node matches,
given the widths of the groups that it may recall.
-/

namespace Parley.Pattern

/-- The options a pattern is read under. -/
structure Options where
  ignoreCase : Bool := false
  lineByLine : Bool := false
  dotAll : Bool := false
  asciiOnly : Bool := false
  deriving DecidableEq, Repr

/-- A change of the options for a part of a pattern. -/
structure Change where
  ignoreCase : Option Bool := none
  lineByLine : Option Bool := none
  dotAll : Option Bool := none
  asciiOnly : Option Bool := none
  deriving DecidableEq, Repr

/-- The options after a change. -/
def Options.apply (o : Options) (c : Change) : Options where
  ignoreCase := c.ignoreCase.getD o.ignoreCase
  lineByLine := c.lineByLine.getD o.lineByLine
  dotAll := c.dotAll.getD o.dotAll
  asciiOnly := c.asciiOnly.getD o.asciiOnly

/-- A named character class. -/
inductive Category where
  | digit
  | blank
  | word
  deriving DecidableEq, Repr

/-- A member of a bracketed class. -/
inductive Member where
  | one (code : Nat)
  | range (lo hi : Nat)
  | category (kind : Category) (negated : Bool)
  deriving DecidableEq, Repr

/-- A place in a text. -/
inductive Anchor where
  | textStart
  | textEnd
  /-- The start of the text, or of a line when lines count. -/
  | lineStart
  /-- The end of the text or the place before its last line break; or the end of a line when lines
  count. -/
  | lineEnd
  | wordEdge
  | insideWord
  deriving DecidableEq, Repr

/-- A part of a pattern. -/
inductive Node where
  | empty
  | any
  | oneOf (negated : Bool) (members : List Member)
  | anchor (place : Anchor)
  | sequence (first second : Node)
  | choice (first second : Node)
  | repetition (greedy : Bool) (least : Nat) (most : Option Nat) (body : Node)
  | capture (group : Nat) (body : Node)
  | echo (group : Nat)
  /-- The body matches, or does not match, from `back` characters before the place on. -/
  | look (back : Nat) (negated : Bool) (body : Node)
  /-- The first match of the body, for good. -/
  | atomic (body : Node)
  | whether (group : Nat) (yes no : Node)
  | under (change : Change) (body : Node)
  deriving DecidableEq, Repr

/-- The least length of a match, and the greatest where there is one. -/
abbrev Width := Nat × Option Nat

/-- The sum of two greatest lengths. -/
def addMost : Option Nat → Option Nat → Option Nat
  | some a, some b => some (a + b)
  | _, _ => none

/-- The greater of two greatest lengths. -/
def maxMost : Option Nat → Option Nat → Option Nat
  | some a, some b => some (max a b)
  | _, _ => none

/-- The lengths of what a node matches. -/
def Node.width (groups : Nat → Width) : Node → Width
  | .any | .oneOf .. => (1, some 1)
  | .sequence a b => ((a.width groups).1 + (b.width groups).1,
      addMost (a.width groups).2 (b.width groups).2)
  | .choice a b | .whether _ a b =>
    (min (a.width groups).1 (b.width groups).1, maxMost (a.width groups).2 (b.width groups).2)
  | .repetition _ least most body =>
    let (lo, hi) := body.width groups
    (lo * least, match hi, most with
      | some 0, _ => some 0
      | some h, some m => some (h * m)
      | none, some 0 => some 0
      | _, _ => none)
  | .capture _ body | .atomic body | .under _ body => body.width groups
  | .echo group => groups group
  | .empty | .anchor _ | .look .. => (0, some 0)

end Parley.Pattern

/-- A pattern with its options. -/
structure Parley.Pattern where
  options : Parley.Pattern.Options
  node : Parley.Pattern.Node
  deriving DecidableEq
