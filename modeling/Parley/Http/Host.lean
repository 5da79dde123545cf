import Parley.Number.Digits
import Parley.Text.Case
import Parley.Text.Bases
import Parley.Text.Percent
import Parley.Text.Punycode
import Parley.Text.Quoted
import Parley.Text.Split
import Parley.Text.Word

/-!
# Hosts

A host is an address of four numbers, an address of hexadecimal groups in brackets, or a name. Names
are written in small letters, and the labels of names beyond ASCII in plain letters after `xn--`.

Main statement: a host of four numbers is written as it is (`encode_quad`).
-/

namespace Parley.Http

/-- Why a text is no address of the web. -/
inductive UrlFault where
  | tooLong
  /-- A control character stands at a place. -/
  | unprintable (c : Char) (place : Nat)
  | portNumber (text : String)
  /-- A host of four numbers is no such address. -/
  | quad (host : String)
  /-- A host in brackets is no address of groups. -/
  | groups (host : String)
  /-- A host beyond ASCII is no name. -/
  | name (host : String)
  /-- After a host the path does not begin with a slash. -/
  | path
  | doubleSlash
  | leadingColon
  deriving DecidableEq, Repr

/-- The text of a fault. -/
def UrlFault.message : UrlFault → String
  | .tooLong => "URL too long"
  | .unprintable c place => "Invalid non-printable ASCII character in URL, " ++
      Text.quoted (String.singleton c) ++ " at position " ++ Number.natText place ++ "."
  | .portNumber text => "Invalid port: " ++ Text.quoted text
  | .quad host => "Invalid IPv4 address: " ++ Text.quoted host
  | .groups host => "Invalid IPv6 address: " ++ Text.quoted host
  | .name host => "Invalid IDNA hostname: " ++ Text.quoted host
  | .path => "For absolute URLs, path must be empty or begin with '/'"
  | .doubleSlash => "Relative URLs cannot have a path starting with '//'"
  | .leadingColon => "Relative URLs cannot have a path starting with ':'"

namespace Host

/-- One of the four numbers of an address: below 256, without leading zeros. -/
def isQuadPart (cs : List Char) : Bool :=
  !cs.isEmpty && cs.all Number.isDigit && (cs.length == 1 || cs.head? != some '0') &&
    cs.length ≤ 3 &&
    Number.ofDigitChars cs < 256

/-- An address of four numbers. -/
def isQuad (cs : List Char) : Bool :=
  let parts := Text.splitAt '.' cs
  parts.length == 4 && parts.all isQuadPart

/-- The text is made like an address of four numbers. -/
def looksLikeQuad (cs : List Char) : Bool :=
  let parts := Text.splitAt '.' cs
  parts.length == 4 && parts.all fun p => !p.isEmpty && p.all Number.isDigit

/-- One of the groups of an address: one to four hexadecimal digits. -/
def isGroup (cs : List Char) : Bool :=
  !cs.isEmpty && cs.length ≤ 4 && cs.all fun c => (Text.hexDigit? c).isSome

/-- How many groups the parts stand for, when all are groups; an address of four numbers in the last
place stands for two. -/
def groupCount? : List (List Char) → Option Nat
  | [] => some 0
  | [last] => if isGroup last then some 1 else if isQuad last then some 2 else none
  | p :: rest => if isGroup p then (groupCount? rest).map (· + 1) else none

/-- How many groups stand on one side of a gap; there may be none. -/
def sideCount? (parts : List (List Char)) :
    Option Nat := if parts = [[]] then some 0 else groupCount? parts

/-- An address of eight groups, of which one run may be left out. -/
def isGroupAddress (cs : List Char) : Bool :=
  let parts := Text.splitAt ':' cs
  let inner := parts.tail.dropLast
  if inner.contains [] then
    let before := parts.take 1 ++ inner.takeWhile (· != [])
    let after := (inner.dropWhile (· != [])).tail ++ parts.drop (parts.length - 1)
    (before == [[]] || before.all isGroup) && match sideCount? before, sideCount? after with
      | some m, some n => m + n ≤ 7
      | _, _ => false
  else groupCount? parts == some 8

/-- A host in brackets: an address of groups, with a zone that may follow a percent sign. -/
def isBracketed (cs : List Char) : Bool :=
  let zone := cs.dropWhile (· != '%')
  (zone.isEmpty || zone.length ≥ 2 && !zone.tail.contains '%') &&
    isGroupAddress (cs.takeWhile (· != '%'))

/-- A label of a name beyond ASCII: letters and digits, and hyphens inside. -/
def isLabel (cs : List Char) : Bool :=
  !cs.isEmpty && cs.head? != some '-' && cs.getLast? != some '-' &&
    cs.all fun c => c = '-' || (Text.isWord c && c != '_')

/-- The labels of a name; the last may be empty. -/
def encodeName? (cs : List Char) : Option (List Char) :=
  let labels := Text.splitAt '.' cs
  let body := if labels.getLast? = some [] then labels.dropLast else labels
  if body.all isLabel && !body.isEmpty then
    some (['.'].intercalate (labels.map fun l => if l.all (·.toNat < 128) then l
      else "xn--".toList ++ Text.Punycode.encode l))
  else none

/-- The characters that stand for themselves in a name. -/
def isNameSafe (c : Char) : Bool :=
  Number.isDigit c || c.isAlpha || "-._~!$&'()*+,;=\"`\x7b\x7d%|\\".toList.contains c

/-- A host as it is written in addresses, without the brackets. -/
def encode (host : String) : Except UrlFault String :=
  let cs := host.toList
  if looksLikeQuad cs then if isQuad cs then .ok host else .error (.quad host)
  else if cs.head? = some '[' && cs.getLast? = some ']' then
    let inner := cs.tail.dropLast
    if isBracketed inner then .ok (String.ofList inner) else .error (.groups host)
  else if cs.all (·.toNat < 128) then
    .ok (String.ofList (Text.Percent.encode isNameSafe (Text.lower host).toList))
  else match encodeName? (Text.lower host).toList with
    | some name => .ok (String.ofList name)
    | none => .error (.name host)

theorem encode_quad {host : String} (h : isQuad host.toList = true) : encode host = .ok host := by
  have like : looksLikeQuad host.toList = true := by
    simp only [isQuad, Bool.and_eq_true, List.all_eq_true] at h
    simp only [looksLikeQuad, Bool.and_eq_true, List.all_eq_true]
    refine ⟨h.1, fun p hp => ?_⟩
    have part := h.2 p hp
    simp only [isQuadPart, Bool.and_eq_true] at part
    exact ⟨part.1.1.1.1, List.all_eq_true.mp part.1.1.1.2⟩
  simp [encode, like, h]

end Host
end Parley.Http
