import Parley.Pattern.Basic
import Parley.Text.Classes
import Parley.Text.Case
import Parley.Text.Word

/-!
# Matching by backtracking

A matcher takes what has to follow and a place in the text, and gives the first place that works
out. Choices are tried from left to right; a greedy repetition tries one more turn before it stops,
a lazy one after. A turn that made no way is the last one, so a repetition has at most one turn more
than there are characters left, and matching ends.

`Pattern.covers` asks for a match of the whole text, `Pattern.begins` for one from its start on,
`Pattern.occursIn` for one anywhere in it.
-/

namespace Parley.Pattern

/-- A place in a text, with the texts of the groups that have matched. -/
structure Place where
  /-- The characters passed, the nearest first. -/
  before : List Char
  after : List Char
  groups : List (Nat × List Char)

/-- What is done with a place that matched. -/
abbrev Next := Place → Option Place

/-- A matcher, which passes each place that it reaches to the rest until one is accepted. -/
abbrev Matcher := Next → Place → Option Place

/-- The character belongs to the class. -/
def Category.holds (o : Options) (kind : Category) (c : Char) : Bool :=
  (!o.asciiOnly || c.toNat < 0x80) &&
    match kind with
    | .digit => Text.isDecimal c
    | .blank => Text.isBlank c && !(o.asciiOnly && 0x1c ≤ c.toNat && c.toNat ≤ 0x1f)
    | .word => Text.isWord c

/-- The codes that stand for a character under the options. -/
def codesFor (o : Options) (c : Char) : List Nat :=
  if !o.ignoreCase then [c.toNat]
  else if o.asciiOnly then
    if 'a' ≤ c && c ≤ 'z' then [c.toNat, c.toNat - 32]
    else if 'A' ≤ c && c ≤ 'Z' then [c.toNat, c.toNat + 32]
    else [c.toNat]
  else Text.alike c

/-- The character, one of whose codes may stand for it, is a member. -/
def Member.holds (o : Options) (c : Char) : Member → Bool
  | .one code => (codesFor o c).contains code
  | .range lo hi => (codesFor o c).any fun code => lo ≤ code && code ≤ hi
  | .category kind negated => kind.holds o c != negated

/-- The place lies between a word character and another one, or the end. -/
def atWordEdge (o : Options) (p : Place) : Bool :=
  let isWord : List Char → Bool
    | c :: _ => Category.holds o .word c
    | [] => false
  isWord p.before != isWord p.after

/-- The place is where the anchor stands. In an empty text no place is at or off a word's edge. -/
def Anchor.holds (o : Options) (p : Place) : Anchor → Bool
  | .textStart => p.before.isEmpty
  | .textEnd => p.after.isEmpty
  | .lineStart => p.before.isEmpty || (o.lineByLine && p.before.head? == some '\n')
  | .lineEnd => p.after.isEmpty || p.after == ['\n'] || (o.lineByLine && p.after.head? == some '\n')
  | .wordEdge => atWordEdge o p
  | .insideWord => !(p.before.isEmpty && p.after.isEmpty) && !atWordEdge o p

/-- One character that the test takes. -/
def takeOne (test : Char → Bool) : Matcher := fun next p =>
  match p.after with
  | c :: rest => if test c then next { p with before := c :: p.before, after := rest } else none
  | [] => none

/-- A given text. -/
def takeText (same : Char → Char → Bool) : List Char → Matcher
  | [], next, p => next p
  | c :: cs, next, p => takeOne (same c) (takeText same cs next) p

/-- Exactly so many turns. -/
def required (m : Matcher) : Nat → Matcher
  | 0, next, p => next p
  | n + 1, next, p => m (required m n next) p

/-- At most `most` turns more, of which none follows one that made no way; `since` is how many
characters were left when the last turn began. -/
def optional (greedy : Bool) (m : Matcher) (next : Next) :
    Nat → Option Nat → Option Nat → Place → Option Place
  | 0, _, _, p => next p
  | fuel + 1, most, since, p =>
    let left := p.after.length
    let again : Unit → Option Place := fun _ =>
      if most = some 0 || since = some left then none
      else m (optional greedy m next fuel (most.map (· - 1)) (some left)) p
    if greedy then (again ()).orElse fun _ => next p
    else (next p).orElse again

/-- The place so many characters earlier. -/
def Place.back? (p : Place) (n : Nat) : Option Place :=
  if p.before.length < n then none
  else some { p with before := p.before.drop n, after := (p.before.take n).reverse ++ p.after }

/-- The matcher of a node. -/
def Node.run (o : Options) : Node → Matcher
  | .empty => fun next p => next p
  | .any => takeOne fun c => o.dotAll || c != '\n'
  | .oneOf negated members => takeOne fun c => members.any (Member.holds o c) != negated
  | .anchor place => fun next p => if place.holds o p then next p else none
  | .sequence a b => fun next p => a.run o (b.run o next) p
  | .choice a b => fun next p => (a.run o next p).orElse fun _ => b.run o next p
  | .repetition greedy least most body => fun next p =>
    let rest : Next := fun q =>
      optional greedy (body.run o) next (q.after.length + 2) (most.map (· - least)) none q
    required (body.run o) least rest p
  | .capture group body => fun next p =>
    body.run o (fun q =>
      let text := p.after.take (p.after.length - q.after.length)
      next { q with groups := (group, text) :: q.groups }) p
  | .echo group => fun next p =>
    match p.groups.lookup group with
    | some text =>
      takeText (fun c d => if o.ignoreCase then Text.smallOf c == Text.smallOf d
        else c == d) text next p
    | none => none
  | .look back negated body => fun next p =>
    match (p.back? back).bind (body.run o some) with
    | some q => if negated then none else next { p with groups := q.groups }
    | none => if negated then next p else none
  | .atomic body => fun next p => (body.run o some p).bind next
  | .whether group yes no => fun next p =>
    if (p.groups.lookup group).isSome then yes.run o next p else no.run o next p
  | .under change body => fun next p => body.run (o.apply change) next p

/-- The pattern matches from the start of `cs` on, after `before`. -/
def startsAt (p : Pattern) (before cs : List Char) (next : Next) : Bool :=
  (p.node.run p.options next ⟨before, cs, []⟩).isSome

/-- The pattern matches the whole text. -/
def covers (p : Pattern) (s : String) : Bool :=
  p.startsAt [] s.toList fun q => if q.after.isEmpty then some q else none

/-- The pattern matches from the start of the text on. -/
def begins (p : Pattern) (s : String) : Bool := p.startsAt [] s.toList some

/-- The pattern matches somewhere from a place on. -/
def occursFrom (p : Pattern) (before : List Char) : List Char → Bool
  | [] => p.startsAt before [] some
  | c :: rest => p.startsAt before (c :: rest) some || p.occursFrom (c :: before) rest

/-- The pattern matches a part of the text. -/
def occursIn (p : Pattern) (s : String) : Bool := p.occursFrom [] s.toList

end Parley.Pattern
