import Parley.Http.Host
import Parley.Number.Reading
import Parley.Value.Display
import Parley.Value.Fields

/-!
# Addresses of the web

An address has a scheme, a host with a person before it and a number after it, a path, a query and
a fragment. Characters that may not stand in a part are escaped, steps back in paths are taken, and
the usual number of a scheme is left out. An address without a host is relative; `join` and `below`
say what it means beside another one.

The query of an address names texts. A name may come several times; what comes under one name is
read together, where it first comes. Values are written as texts: a list as its items, and nothing
as no text.

Main statements: `join_absolute`, an address with a host stays itself beside every other, and
`params_withParams_nil`, an address without named texts has no query.
-/

namespace Parley.Http

/-- An address of the web. -/
structure Url where
  scheme : String := ""
  person : String := ""
  host : String := ""
  portNumber : Option Int := none
  path : String := ""
  query : Option String := none
  fragment : Option String := none
  deriving DecidableEq, Repr

namespace Url

/-! ## Characters -/

/-- The visible characters of ASCII and the blank, without some. -/
def isPlainBut (refused : List Char) (c : Char) : Bool :=
  0x20 ≤ c.toNat && c.toNat < 0x7f && !refused.contains c

/-- Characters that stand for themselves in a path. -/
def isPathSafe : Char → Bool := isPlainBut [' ', '"', '#', '<', '>', '?', Char.ofNat 0x60, '{', '}']

/-- Characters that stand for themselves in a query. -/
def isQuerySafe : Char → Bool := isPlainBut [' ', '"', '#', '<', '>']

/-- Characters that stand for themselves in a fragment. -/
def isFragmentSafe : Char → Bool := isPlainBut [' ', '"', '<', '>', Char.ofNat 0x60]

/-- Characters that stand for themselves in the person. -/
def isPersonSafe (c : Char) : Bool :=
  isPathSafe c && ['/', ';', '=', '@', '[', '\\', ']', '^', '|'].all (· != c)

/-- The characters of a text, escaped unless they are safe. -/
def escaped (safe : Char → Bool) (cs : List Char) : String :=
  String.ofList (Text.Percent.encode safe cs)

/-! ## Parts -/

/-- A character of a scheme after its first. -/
def isSchemeChar (c : Char) : Bool := c.isAlphanum || c = '+' || c = '.' || c = '-'

/-- The scheme before the first colon, and what follows it. -/
def splitScheme (cs : List Char) : List Char × List Char :=
  let name := cs.takeWhile isSchemeChar
  match cs.dropWhile isSchemeChar with
  | ':' :: rest => if name.head?.all Char.isAlpha then (name, rest) else ([], cs)
  | _ => ([], cs)

/-- The authority after two slashes, and what follows it. -/
def splitAuthority (cs : List Char) : List Char × List Char :=
  let ends := fun c => c = '/' || c = '?' || c = '#'
  match cs with
  | '/' :: '/' :: rest => (rest.takeWhile (!ends ·), rest.dropWhile (!ends ·))
  | cs => ([], cs)

/-- What stands before a mark, and what follows the mark when there is one. -/
def cutAt (mark : Char) (cs : List Char) : List Char × Option (List Char) :=
  match cs.dropWhile (· != mark) with
  | [] => (cs, none)
  | _ :: rest => (cs.takeWhile (· != mark), some rest)

/-- What stands before and after the last of the marks; nothing before it when there is none. -/
def cutAtLast (mark : Char) (cs : List Char) : List Char × List Char :=
  match cutAt mark cs.reverse with
  | (_, none) => ([], cs)
  | (after, some before) => (before.reverse, after.reverse)

/-- The host and what follows it: a host in brackets, or what comes before the number. -/
def splitHost (cs : List Char) : List Char × List Char :=
  if cs.head? = some '[' && cs.contains ']' then
    let (inner, after) := cutAtLast ']' cs
    (inner ++ [']'], after)
  else (cs.takeWhile fun c => c != ':' && c != '@', cs.dropWhile fun c => c != ':' && c != '@')

/-- A whole number as people write it: a sign, digits of any script and single underscores between
them. -/
def wholeNumber? (cs : List Char) : Option Int :=
  let (negative, body) := Number.readSign ((Text.stripBy Text.isBlank cs).map Number.toAsciiDigit)
  match Number.joinDigits? body with
  | none | some [] => none
  | some ds =>
    if ds.all Number.isDigit && ds.length ≤ Number.digitLimit then
      some (if negative then -(Number.ofDigitChars ds : Int) else Number.ofDigitChars ds)
    else none

/-- The usual number behind the host for a scheme. -/
def usualPortNumber (scheme : String) : Option Int :=
  Entries.get? [("ftp", 21), ("http", 80), ("https", 443), ("ws", 80), ("wss", 443)] scheme

/-- The number that a text states for a scheme; the usual one is not told. -/
def readPortNumber (scheme : String) (cs : List Char) : Except UrlFault (Option Int) :=
  let text := if cs.head? = some ':' then cs.tail else cs
  if text.isEmpty then .ok none
  else match wholeNumber? text with
    | none => .error (.portNumber (String.ofList text))
    | some n => .ok (if usualPortNumber scheme = some n then none else some n)

/-! ## Paths -/

/-- The steps of a path with the steps back taken; a path never leaves its root. -/
def takeSteps : List (List Char) → List (List Char) → List (List Char)
  | done, [] => done
  | done, step :: rest =>
    if step = ['.'] then takeSteps done rest
    else if step = ['.', '.'] then takeSteps (if done = [[]] then done else done.dropLast) rest
    else takeSteps (done ++ [step]) rest

/-- A path with its steps back taken. -/
def normalPath (cs : List Char) : List Char :=
  ['/'].intercalate (takeSteps [] (Text.splitAt '/' cs))

/-- A path that an address with or without a scheme and an authority may have. -/
def checkPath (hasScheme hasAuthority : Bool) (path : List Char) : Except UrlFault Unit :=
  if hasAuthority && !path.isEmpty && path.head? != some '/' then .error .path
  else if !hasScheme && !hasAuthority && path.take 2 == ['/', '/'] then .error .doubleSlash
  else if !hasScheme && !hasAuthority && path.head? == some ':' then .error .leadingColon
  else .ok ()

/-! ## Reading and writing -/

/-- The first control character of a text. -/
def unprintable? (cs : List Char) : Option UrlFault :=
  let place := (cs.takeWhile fun c => 0x20 ≤ c.toNat && c.toNat != 0x7f).length
  cs[place]?.map (.unprintable · place)

/-- An address from its scheme, authority, path, query and fragment as they are written. -/
def ofParts (scheme authority path : List Char) (query fragment : Option (List Char)) :
    Except UrlFault Url := do
  let (person, location) := cutAtLast '@' authority
  let (host, number) := splitHost location
  let person := escaped isPersonSafe person
  let host ← Host.encode (String.ofList host)
  let number ← readPortNumber (String.ofList scheme) number
  let hasAuthority := person != "" || host != "" || number.isSome
  checkPath (!scheme.isEmpty) hasAuthority path
  let path := if !scheme.isEmpty || hasAuthority then normalPath path else path
  return { scheme := Text.lower (String.ofList scheme), person := person, host := host,
           portNumber := number, path := escaped isPathSafe path,
           query := query.map (escaped isQuerySafe),
           fragment := fragment.map (escaped isFragmentSafe) }

/-- The longest text that is read as an address. -/
def lengthLimit : Nat := 65536

/-- The address that a text states. -/
def read (text : String) : Except UrlFault Url :=
  let cs := text.toList
  if lengthLimit < cs.length then .error .tooLong
  else match unprintable? cs with
    | some e => .error e
    | none =>
      let (scheme, rest) := splitScheme cs
      let (authority, rest) := splitAuthority rest
      let (rest, fragment) := cutAt '#' rest
      let (path, query) := cutAt '?' rest
      ofParts scheme authority path query fragment

/-- The host and what stands around it. -/
def authority (u : Url) : String :=
  (if u.person = "" then "" else u.person ++ "@") ++
    (if u.host.toList.contains ':' then "[" ++ u.host ++ "]" else u.host) ++
    (match u.portNumber with
      | none => ""
      | some n => ":" ++ Number.intText n)

/-- The address as a text. -/
def write (u : Url) : String :=
  (if u.scheme = "" then "" else u.scheme ++ ":") ++
    (if u.authority = "" then "" else "//" ++ u.authority) ++ u.path ++
    (u.query.map ("?" ++ ·)).getD "" ++ (u.fragment.map ("#" ++ ·)).getD ""

/-! ## Relative addresses -/

/-- The address has a scheme and a host. -/
def isAbsolute (u : Url) : Bool := u.scheme != "" && u.host != ""

/-- The steps of a path beside another one: an empty one is the other path itself, one from the root
stands alone, and any other follows the directory of the other path. -/
def stepsBeside (base path : List Char) : List (List Char) :=
  let steps := Text.splitAt '/' path
  if path.head? = some '/' then steps
  else
    let above := Text.splitAt '/' base
    let all := (if above.getLast? = some [] then above else above.dropLast) ++ steps
    all.take 1 ++ (all.tail.dropLast.filter (· != [])) ++ all.tail.drop (all.tail.length - 1)

/-- A path beside another one, with its steps back taken. -/
def pathBeside (base path : List Char) : List Char :=
  let steps := stepsBeside base path
  let kept := steps.foldl (fun done s =>
    if s = ['.', '.'] then done.dropLast else if s = ['.'] then done else done ++ [s]) []
  let ended :=
    if steps.getLast? = some ['.'] || steps.getLast? = some ['.', '.'] then kept ++ [[]] else kept
  let joined := ['/'].intercalate ended
  if joined.isEmpty then ['/'] else joined

/-- A path, and the parameters after the first semicolon of its last step. -/
def splitParameters (path : List Char) : List Char × List Char :=
  let last := (path.reverse.takeWhile (· != '/')).reverse
  let (step, params) := cutAt ';' last
  (path.take (path.length - last.length) ++ step, params.getD [])

/-- A path with its parameters, if it has any. -/
def withParameters (path params : List Char) : String :=
  String.ofList (if params.isEmpty then path else path ++ ';' :: params)

/-- The path begins at the root. -/
def rooted (path : List Char) : List Char := if path.head? = some '/' then path else '/' :: path

/-- What a relative address means on a page. One with a host of its own only lacks the scheme. -/
def join (page u : Url) : Url :=
  if u.isAbsolute then u
  else if u.authority != "" then
    let number := if usualPortNumber page.scheme = u.portNumber then none else u.portNumber
    { u with scheme := page.scheme, portNumber := number }
  else
    let (base, own) := splitParameters page.path.toList
    let (path, params) := splitParameters u.path.toList
    if path.isEmpty && params.isEmpty then
      { page with path := withParameters base own,
                  query := if u.query.getD "" = "" then page.query else u.query,
                  fragment := u.fragment }
    else
      let joined := pathBeside base path
      let path := if page.authority = "" then joined else rooted joined
      { page with path := withParameters path params, query := u.query, fragment := u.fragment }

/-- The path and the query as they are sent. -/
def target (u : Url) : List Char :=
  (if u.path = "" then ['/'] else u.path.toList) ++ (u.query.map fun q => '?' :: q.toList).getD []

/-- What a relative address means below a base, whose path it continues. -/
def below (base u : Url) : Except UrlFault Url :=
  if u.isAbsolute then .ok u
  else
    let root := if base.target.getLast? = some '/' then base.target else base.target ++ ['/']
    let (path, query) := cutAt '?' (root ++ u.target.dropWhile (· = '/'))
    ofParts base.scheme.toList base.authority.toList path query (base.fragment.map String.toList)

/-- An absolute address is the same on every page. -/
theorem join_absolute (page : Url) {u : Url} (h : u.isAbsolute = true) : page.join u = u := by
  simp [join, h]

/-! ### Queries -/

/-- The named texts of a query, those of one name together. -/
def grouped (pairs : Entries String) : Entries String :=
  (Entries.ofPairs pairs).names.flatMap fun name => pairs.filter (·.1 = name)

/-- A text of a query. -/
def readTerm (cs : List Char) : String :=
  Text.Percent.decode (String.ofList (cs.map fun c => if c = '+' then ' ' else c))

/-- The named texts of a query, in the order of the names. -/
def params (u : Url) : Entries String :=
  match u.query with
  | none => []
  | some q => grouped <| ((Text.splitAt '&' q.toList).filter (· != [])).map fun term =>
      let (name, value) := cutAt '=' term
      (readTerm name, readTerm (value.getD []))

/-- Characters that stand for themselves in the texts of a query. -/
def isTermSafe (c : Char) : Bool := c.isAlphanum || c = '_' || c = '.' || c = '-' || c = '~'

/-- A text as it is written in a query. -/
def writeTerm (s : String) : List Char :=
  s.toList.flatMap fun c =>
    if c = ' ' then ['+'] else if isTermSafe c then [c] else Text.Percent.escape c

/-- The address with named texts for its query; none of them is no query. -/
def withParams (u : Url) (pairs : Entries String) : Url :=
  { u with query := if pairs.isEmpty then none else some (String.ofList
      (['&'].intercalate ((grouped pairs).map fun e => writeTerm e.1 ++ '=' :: writeTerm e.2))) }

/-- A value as a text of a query. -/
def termOf : Value → Except Parley.Fault String
  | .null => .ok ""
  | .bool b => .ok (if b then "true" else "false")
  | v => v.plain

/-- Named values as the texts of a query. -/
def paramsOf : Fields → Except Parley.Fault (Entries String)
  | [] => .ok []
  | (name, .list items) :: rest => do
    return (← items.mapM termOf).map (Prod.mk name) ++ (← paramsOf rest)
  | (name, v) :: rest => do return (name, ← termOf v) :: (← paramsOf rest)

theorem params_withParams_nil (u : Url) : (u.withParams []).params = [] := rfl

end Url
end Parley.Http
