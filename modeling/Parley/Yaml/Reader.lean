import Parley.Yaml.Text

/-!
# Values read from YAML

The reader takes one document: block lists and mappings, told apart by their columns, lists and
mappings in brackets, and plain, quoted and block texts. A node may have an anchor, under which
later nodes take it over, and a tag for texts, numbers, truth values, null, lists or mappings; tags
for sets, pairs, bytes and moments are not taken. Of entries with one name the last counts, at the
place of the first; entries that a mapping takes over from others (`<<`) come before its own.

Some parts of a document cannot be made although they are written right, such as a date in a 13th
month. They are told only when the whole text has been read (`Notes.fault`). Moments are no values;
what stands in for them is given (`Notes.standIn`).
-/

namespace Parley.Yaml

/-- What the reader notes on its way. -/
structure Notes where
  /-- What stands in for a moment. -/
  standIn : String → Value
  /-- There is a moment. -/
  isForeign : Bool := false
  anchors : Entries Value := []
  /-- Why the first part that cannot be made cannot. -/
  fault : Option ReadFault := none

/-- A computation of the reader. -/
abbrev Scan := StateT Notes (Except ReadFault)

/-- The text is malformed. -/
def refuse {α : Type} : Scan α := throw .malformed

/-- A part that cannot be made; another stands in its place until the whole text has been read. -/
def blame {α : Type} (fault : ReadFault) (instead : α) : Scan α := do
  modify fun n => { n with fault := n.fault.or (some fault) }
  return instead

/-- A part, if it can be made. -/
def made {α : Type} (part : Except ReadFault α) (instead : α) : Scan α :=
  match part with
  | .ok a => return a
  | .error fault => blame fault instead

/-! ### Nodes -/

/-- What may stand before a node. -/
structure Marks where
  anchor : Option String := none
  tag : Option String := none

/-- A character of an anchor's name. -/
def isNameChar (c : Char) : Bool := c.isAlphanum || c = '-' || c = '_'

/-- The name of an anchor, and what follows. -/
def anchorName (cs : Marked) : Except ReadFault (String × Marked) :=
  let name := (cs.takeWhile fun c => isNameChar c.1).map (·.1)
  let more := cs.dropWhile fun c => isNameChar c.1
  let ends := more.head?.all fun c => isSpace c.1 || "?:,]\x7d%@\x60".toList.contains c.1
  if name.isEmpty || !ends then .error .malformed else .ok (String.ofList name, more)

/-- The kind that a tag names: kinds of values by their names, and other kinds by their tags. -/
def tagKind (tag : List Char) : Option String :=
  let standard := "tag:yaml.org,2002:".toList
  match tag with
  | '!' :: '!' :: kind => if kind.isEmpty || kind.contains '!' then none
      else some (String.ofList kind)
  | '!' :: '<' :: verbatim =>
    let uri := verbatim.takeWhile (· != '>')
    if verbatim.length = uri.length + 1 && !uri.isEmpty then
      some (if standard.isPrefixOf uri then String.ofList (uri.drop standard.length)
        else String.ofList tag)
    else none
  | '!' :: rest => if rest.contains '!' then none else some (String.ofList tag)
  | _ => none

/-- The marks before a node, as far as they are on this line, and what follows. -/
def readMarks (marks : Marks) : Nat → Marked → Except ReadFault (Marks × Marked)
  | 0, cs => .ok (marks, cs)
  | fuel + 1, cs =>
    match cs with
    | ('&', _) :: rest => do
      let (name, more) ← anchorName rest
      if marks.anchor.isSome then throw .malformed
      readMarks { marks with anchor := some name } fuel (more.dropWhile fun c => c.1 = ' ')
    | ('!', _) :: _ =>
      let tag := (cs.takeWhile fun c => !isSpace c.1).map (·.1)
      match tagKind tag with
      | none => .error .malformed
      | some kind =>
        if marks.tag.isSome then .error .malformed
        else readMarks { marks with tag := some kind } fuel
          ((cs.drop tag.length).dropWhile fun c => c.1 = ' ')
    | cs => .ok (marks, cs)

/-- The node is known under its anchor from here on. An anchor is given once. -/
def bind (marks : Marks) (v : Value) : Scan Value := do
  match marks.anchor with
  | none => return v
  | some name =>
    if (← get).anchors.has name then refuse
    modify fun n => { n with anchors := n.anchors.put name v }
    return v

/-- The node that is known under an anchor, and what follows its name. -/
def aliased (cs : Marked) : Scan (Value × Marked) := do
  let (name, more) ← anchorName cs
  match (← get).anchors.get? name with
  | some v => return (v, more)
  | none => refuse

/-- The value of a word without quotes. -/
def plainWord (word : String) : Scan Value := do
  match ← made (ofWord word) (.value .null) with
  | .value v => return v
  | .moment =>
    modify fun n => { n with isForeign := true }
    return (← get).standIn word
  | .merge | .standard => blame .malformed .null

/-- The value of a text, which its tag may settle; a lone mark of a tag lets it count as plain. -/
def textValue (tag : Option String) (isPlain : Bool) (text : String) : Scan Value :=
  match tag with
  | none => if isPlain then plainWord text else return .text text
  | some "!" => plainWord text
  | some kind => made ((ofTag kind text).getD (.error .malformed)) .null

/-- A list or mapping may have the tag. -/
def checkKind (kind : String) (marks : Marks) (v : Value) : Scan Value :=
  if marks.tag.all fun tag => tag = kind || tag = "!" then bind marks v
  else do bind marks (← blame .malformed v)

/-- A text on one line or more that is no block text: whether it is plain, its characters, and what
follows. `parent` is the column of what it belongs to. -/
def readText (inBrackets : Bool) (parent : Int) (cs : Marked) :
    Except ReadFault (Bool × String × Marked) :=
  match cs with
  | ('\'', _) :: rest => (singleQuoted (rest.length + 1) rest).map fun r =>
      (false, String.ofList r.1, r.2)
  | ('"', _) :: rest => (doubleQuoted (rest.length + 1) rest).map fun r =>
      (false, String.ofList r.1, r.2)
  | (c, _) :: rest =>
    if startsPlain inBrackets c rest then
      let (line, more) := plainLine inBrackets false cs
      let (lines, more) := plainMore inBrackets parent (more.length + 1) more
      .ok (true, String.ofList (trimEnd line ++ lines), more)
    else .error .malformed
  | [] => .error .malformed

/-! ### Entries -/

/-- What an entry of a mapping is known by. -/
inductive Key where
  | name (name : String)
  /-- The entries of the value are taken over. -/
  | merge

/-- The key that a text makes. -/
def textKey (marks : Marks) (isPlain : Bool) (text : String) : Scan Key := do
  match marks.tag, isPlain, ofWord text with
  | none, true, .ok .merge => return .merge
  | none, true, .ok .standard => return .name text
  | none, true, .ok .moment =>
    modify fun n => { n with isForeign := true }
    return .name text
  | tag, _, _ =>
    let v ← bind marks (← textValue tag isPlain text)
    return .name (← made (keyOf v) "")

/-- The key that a value makes. -/
def valueKey (v : Value) : Scan Key := do return .name (← made (keyOf v) "")

/-- The entries of a mapping that is being read. -/
structure Mapping where
  taken : Fields := []
  own : Fields := []

/-- All entries; those taken over come first. -/
def Mapping.fields (m : Mapping) : Fields := m.taken.update m.own

/-- One more entry. Of several mappings that are taken over together the first counts. -/
def Mapping.add (m : Mapping) (key : Key) (v : Value) : Scan Mapping :=
  match key, v with
  | .name name, v => return { m with own := m.own.put name v }
  | .merge, .object fields => return { m with taken := m.taken.update fields }
  | .merge, .list items =>
    match items.mapM Value.asObject? with
    | some mappings => return { m with taken := mappings.reverse.foldl Entries.update m.taken }
    | none => blame .malformed m
  | .merge, _ => blame .malformed m

/-- What a key is written as. -/
inductive KeyText where
  | text (isPlain : Bool) (word : String)
  /-- The node of an anchor. -/
  | alias (name : Marked)

/-- The key that is written so. -/
def KeyText.key (marks : Marks) : KeyText → Scan Key
  | .text isPlain word => textKey marks isPlain word
  | .alias name => do valueKey (← aliased name).1

/-- A key of a block mapping, which must be on one line, and what follows its colon; none when no
key comes first. -/
def keyText? (cs : Marked) : Except ReadFault (Option (Marks × KeyText × Marked)) := do
  let (marks, start) ← readMarks {} 2 cs
  let (text, more) ← match start with
    | ('*', _) :: name => do pure (KeyText.alias name, (← anchorName name).2)
    | (c, _) :: rest =>
      if c = '\'' || c = '"' then do
        let (isPlain, text, more) ← readText false (-1) start
        pure (KeyText.text isPlain text, more)
      else if startsPlain false c rest then
        let (line, more) := plainLine false false start
        pure (KeyText.text true (String.ofList (trimEnd line)), more)
      else return none
    | [] => return none
  let used := (cs.take (cs.length - more.length)).map (·.1)
  match more.dropWhile fun c => c.1 = ' ' with
  | (':', _) :: rest =>
    return if endsToken rest && !used.contains '\n' then some (marks, text, rest) else none
  | _ => return none

/-! ### Nodes in brackets -/

/-- The character ends a node in brackets. -/
def endsNode (c : Char) : Bool := c = ',' || c = ']' || c = '\x7d'

mutual

/-- A node in brackets; where nothing stands it is null. -/
def bracketed : Nat → Marked → Scan (Value × Marked)
  | 0, _ => refuse
  | fuel + 1, cs => do
    let (marks, more) ← readMarks {} 2 cs
    let start := if marks.anchor.isSome || marks.tag.isSome then (skip more).2 else more
    match start with
    | [] => refuse
    | ('[', _) :: rest =>
      let (items, more) ← bracketItems fuel (skip rest).2
      return (← checkKind "seq" marks (.list items), more)
    | ('\x7b', _) :: rest =>
      let (fields, more) ← bracketEntries fuel {} (skip rest).2
      return (← checkKind "map" marks (.object fields), more)
    | ('*', _) :: name => aliased name
    | (c, _) :: _ =>
      if endsNode c || c = ':' then return (← bind marks (← textValue marks.tag true ""), start)
      else
        let (isPlain, text, more) ← readText true (-1) start
        return (← bind marks (← textValue marks.tag isPlain text), more)

/-- A node in brackets, or a key if a colon follows, and what comes after. -/
def bracketPart : Nat → Marked → Scan ((Key ⊕ Value) × Marked)
  | 0, _ => refuse
  | fuel + 1, cs => do
    let (marks, start) ← readMarks {} 2 cs
    let isText := start.head?.any fun c => c.1 = '\'' || c.1 = '"' ||
      startsPlain true c.1 start.tail
    if isText then
      let (isPlain, text, more) ← readText true (-1) start
      match (skip more).2 with
      | (':', _) :: rest => return (.inl (← textKey marks isPlain text), rest)
      | more => return (.inr (← bind marks (← textValue marks.tag isPlain text)), more)
    else
      let (v, more) ← bracketed fuel cs
      match (skip more).2 with
      | (':', _) :: rest => return (.inl (← valueKey v), rest)
      | more => return (.inr v, more)

/-- The items of a list up to its closing bracket; a pair with a colon is a mapping of its own. -/
def bracketItems : Nat → Marked → Scan (List Value × Marked)
  | 0, _ => refuse
  | fuel + 1, cs =>
    match cs with
    | (']', _) :: rest => return ([], rest)
    | cs => do
      let (item, more) ← match ← bracketPart fuel cs with
        | (.inl key, rest) => do
          let (x, more) ← bracketed fuel (skip rest).2
          pure (Value.object (← Mapping.add {} key x).fields, more)
        | (.inr v, more) => pure (v, more)
      match (skip more).2 with
      | (',', _) :: rest =>
        let (items, more) ← bracketItems fuel (skip rest).2
        return (item :: items, more)
      | (']', _) :: rest => return ([item], rest)
      | _ => refuse

/-- The entries of a mapping up to its closing bracket. -/
def bracketEntries : Nat → Mapping → Marked → Scan (Fields × Marked)
  | 0, _, _ => refuse
  | fuel + 1, m, cs =>
    match cs with
    | ('\x7d', _) :: rest => return (m.fields, rest)
    | cs => do
      let (m, more) ← match ← bracketPart fuel cs with
        | (.inl key, rest) => do
          let (x, more) ← bracketed fuel (skip rest).2
          pure (← m.add key x, more)
        | (.inr k, more) => do pure (← m.add (← valueKey k) .null, more)
      match (skip more).2 with
      | (',', _) :: rest => bracketEntries fuel m (skip rest).2
      | ('\x7d', _) :: rest => return (m.fields, rest)
      | _ => refuse

end

/-! ### Nodes in blocks -/

/-- The character begins an item of a list, or the key or the value of an entry. -/
def isSign (sign : Char) : Marked → Bool
  | (c, _) :: rest => c = sign && endsToken rest
  | [] => false

mutual

/-- The node that comes first, further to the right than column `parent`; null when there is none.
Lists and mappings begin on lines of their own, or after a sign (`mayNest`); the dashes of a list
may stand in column `dashes`, too. -/
def block : Nat → Int → Option Nat → Bool → Marks → Marked → Scan (Value × Marked)
  | 0, _, _, _, _, _ => refuse
  | _ + 1, _, _, _, marks, [] => do return (← bind marks (← textValue marks.tag true ""), [])
  | fuel + 1, parent, dashes, mayNest, marks, (c, column) :: rest => do
    let cs := (c, column) :: rest
    if isSign '-' cs && (parent < column || (mayNest && dashes = some column)) then
      if !mayNest then refuse
      let (items, more) ← blockItems fuel column cs
      return (← checkKind "seq" marks (.list items), more)
    else if (column : Int) ≤ parent then return (← bind marks (← textValue marks.tag true ""), cs)
    else if isSign '?' cs then
      if !mayNest then refuse
      let (fields, more) ← blockEntries fuel column {} cs
      return (← checkKind "map" marks (.object fields), more)
    else if c = '[' || c = '\x7b' then
      -- the marks of a node in brackets stand before its bracket
      let (v, more) ← bracketed (4 * cs.length + 4) cs
      return (← checkKind (if c = '[' then "seq" else "map") marks v, more)
    else if c = '|' || c = '>' then
      let (text, more) ← blockText (c = '>') parent rest
      return (← bind marks (← textValue marks.tag false (String.ofList text)), more)
    else if (← keyText? cs).isSome then
      if !mayNest then refuse
      let (fields, more) ← blockEntries fuel column {} cs
      return (← checkKind "map" marks (.object fields), more)
    else if c = '*' then
      if marks.anchor.isSome || marks.tag.isSome then refuse
      aliased rest
    else if c = '&' || c = '!' then
      let (marks, more) ← readMarks marks 2 cs
      let (crossed, start) := skip more
      block fuel parent dashes crossed marks start
    else
      let (isPlain, text, more) ← readText false parent cs
      return (← bind marks (← textValue marks.tag isPlain text), more)

/-- The items of a list whose dashes are in a column. -/
def blockItems : Nat → Nat → Marked → Scan (List Value × Marked)
  | 0, _, _ => refuse
  | fuel + 1, column, cs => do
    let (item, more) ← block fuel column none true {} (skip (cs.drop 1)).2
    let next := (skip more).2
    match next with
    | [] => return ([item], [])
    | (_, at_) :: _ =>
      if column < at_ then refuse
      else if at_ = column && isSign '-' next then
        let (items, more) ← blockItems fuel column next
        return (item :: items, more)
      else return ([item], next)

/-- The entries of a mapping whose keys are in a column. -/
def blockEntries : Nat → Nat → Mapping → Marked → Scan (Fields × Marked)
  | 0, _, _, _ => refuse
  | fuel + 1, column, m, cs => do
    let (key, hasValue, more) ← blockKey fuel column cs
    let (crossed, start) := skip more
    let (v, more) ←
      if hasValue then block fuel column (some column) crossed {} start else pure (.null, start)
    let m ← m.add key v
    let next := (skip more).2
    match next with
    | [] => return (m.fields, [])
    | (_, at_) :: _ =>
      if at_ < column then return (m.fields, next)
      else if column < at_ then refuse
      else blockEntries fuel column m next

/-- The key of an entry, whether a value follows, and what comes after the key and its colon. -/
def blockKey : Nat → Nat → Marked → Scan (Key × Bool × Marked)
  | 0, _, _ => refuse
  | fuel + 1, column, cs => do
    if isSign '?' cs then
      let (k, more) ← block fuel column (some column) true {} (skip (cs.drop 1)).2
      let key ← valueKey k
      match (skip more).2 with
      | (c, at_) :: rest =>
        if at_ = column && isSign ':' ((c, at_) :: rest) then return (key, true, rest)
        else return (key, false, (c, at_) :: rest)
      | [] => return (key, false, [])
    else
      match ← keyText? cs with
      | some (marks, text, rest) => return (← text.key marks, true, rest)
      | none => refuse

end

/-- A character that may stand in a document. -/
def isPrintable (c : Char) : Bool :=
  let n := c.toNat
  n = 9 || n = 10 || (0x20 ≤ n && n ≤ 0x7e) || n = 0x85 || (0xa0 ≤ n && n ≤ 0xfffd) || 0x10000 ≤ n

/-- Every line break as one character. -/
def unifyBreaks : List Char → List Char
  | [] => []
  | '\r' :: '\n' :: rest => '\n' :: unifyBreaks rest
  | c :: rest => (if c = '\r' || c = '\u0085' then '\n' else c) :: unifyBreaks rest

/-- The line is a mark of three characters. -/
def isMark (three line : List Char) : Bool :=
  line.take 3 = three && (line.drop 3).head?.all isSpace

/-- A line without content: blank, a comment or, before a document, a directive. -/
def isIdle (line : List Char) : Bool :=
  match line.dropWhile (· = ' ') with
  | [] => true
  | c :: _ => c = '#'

/-- The lines of a document, of which the first may begin behind a mark; the text must hold only
one. -/
def body : List (List Char) → Except ReadFault (List (List Char))
  | [] => .ok []
  | line :: rest =>
    if isMark ['-', '-', '-'] line then .error .malformed
    else if isMark ['.', '.', '.'] line then
      if rest.all isIdle then .ok [] else .error .malformed
    else (body rest).map (line :: ·)

/-- The characters of the document in a text. -/
def document (lines : List (List Char)) : Except ReadFault Marked :=
  let idle := fun line => isIdle line || line.head? = some '%'
  match lines.dropWhile idle with
  | first :: rest =>
    if isMark ['-', '-', '-'] first then do
      return mark 3 (['\n'].intercalate (first.drop 3 :: (← body rest)))
    else do return mark 0 (['\n'].intercalate (← body (lines.dropWhile isIdle)))
  | [] => .ok []

/-- The value of a text, with what stands in for moments, and whether there are any. -/
def readWith (standIn : String → Value) (text : String) : Except ReadFault (Value × Bool) := do
  let cs := unifyBreaks (match text.toList with
    | '\ufeff' :: rest => rest
    | cs => cs)
  if !cs.all isPrintable then throw .malformed
  let d ← document (Text.splitAt '\n' cs)
  let (crossed, start) := skip d
  let ((v, more), notes) ←
    (block (4 * d.length + 4) (-1) none (crossed || d.head?.all (·.2 = 0)) {} start).run
      { standIn := standIn }
  if !(skip more).2.isEmpty then throw .malformed
  match notes.fault with
  | some fault => throw fault
  | none => return (v, notes.isForeign)

/-- The value of a text, in which the words of moments stand in for them. -/
def read (text : String) : Except ReadFault Value := (readWith .text text).map (·.1)

end Parley.Yaml
