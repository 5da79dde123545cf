import Parley.Json.Reader
import Parley.Registry
import Parley.Yaml.Reader

/-!
# Directories of flows

Flows are published from the files of a directory in the order of the file names: those that end in
`.json` hold JSON, those that end in `.yaml` or `.yml` hold YAML, and others are passed over. So are
files that hold no flow.

What cannot be opened, or holds no text, stops the loading, and what was published before stays. So
does a text whose reading breaks off, such as a whole number with too many digits, and a document of
which a node has a list or an object for its kind. How texts of YAML are read is up to a reader that
is given; it may find mappings with parts that are no values (`Found.foreign`).
-/

namespace Parley.Registry

/-- What goes by a name in a directory. -/
inductive Content where
  | directory
  /-- A file that cannot be opened. -/
  | closed
  /-- A file whose bytes are no text. -/
  | garbled
  | file (text : String)
  deriving Inhabited

/-- Why a directory is not loaded to its end. -/
inductive LoadFault where
  /-- A directory goes by the name of a file. -/
  | isDirectory
  | cannotOpen
  /-- The bytes of a file are no text. -/
  | noText
  /-- The reading of a text breaks off. -/
  | unreadable (fault : Fault)
  | register (fault : RegisterFault)

/-- What is found in a text. -/
inductive Found where
  | document (v : Value)
  /-- A mapping with parts that are no values, and what is read from it as a flow. -/
  | foreign (flow : Except RegisterFault Flow)
  /-- The text is malformed. -/
  | nothing

/-- A reader of texts; its reading may break off. -/
abbrev TextReader := String → Except Fault Found

/-- The form in which a file holds a document. -/
inductive Format where
  | json
  | yaml
  deriving DecidableEq, Repr

/-- The ending of a file name, from its last point on; a point at the start or the end begins none.
-/
def ending (name : String) : String :=
  let cs := name.toList
  let tail := (cs.reverse.takeWhile (· != '.')).reverse
  if tail.isEmpty || cs.length ≤ tail.length + 1 then "" else String.ofList ('.' :: tail)

/-- The form that a file name tells. -/
def Format.ofName? (name : String) : Option Format :=
  match ending name with
  | ".json" => some .json
  | ".yaml" | ".yml" => some .yaml
  | _ => none

/-- A flow from a mapping with moments in it: `words` is the mapping with their words for them,
`nulls` with null and `lists` with lists. Moments are taken where any value is, so null and lists
must be taken too. -/
def parseForeign (words nulls lists : Value) : Except RegisterFault Flow := do
  let flow ← parse words
  let _ ← parse nulls
  let _ ← parse lists
  return flow

/-- What is found in a text of YAML. The words of moments stand in for them in a flow. -/
def findYaml : TextReader := fun text =>
  match Yaml.readWith .text text, Yaml.readWith (fun _ => .null) text,
    Yaml.readWith (fun _ => .list []) text with
  | .error .malformed, _, _ => .ok .nothing
  | .error (.failed fault), _, _ => .error fault
  | .ok (.object words, true), .ok (nulls, _), .ok (lists, _) =>
    .ok (.foreign (parseForeign (.object words) nulls lists))
  | .ok (v, _), _, _ => .ok (.document v)

/-- What is found in a text of a form, given how YAML is read. -/
def Format.find (yaml : TextReader) (format : Format) : TextReader := fun text =>
  match format with
  | .json =>
    match Json.read text with
    | .ok v => .ok (.document v)
    | .error (.malformed ..) => .ok .nothing
    | .error (.tooLong digits) => .error (.tooLongToRead digits)
  | .yaml => yaml text

/-- What is found in a content. -/
def Content.find (yaml : TextReader) (format : Format) : Content → Except LoadFault Found
  | .directory => .error .isDirectory
  | .closed => .error .cannotOpen
  | .garbled => .error .noText
  | .file text => (format.find yaml text).mapError .unreadable

/-- Publish what was found. -/
def publishFound (r : Registry) : Found → Except RegisterFault Registry
  | .document raw => (r.register raw).map (·.1)
  | .foreign flow => flow.bind r.add
  | .nothing => .error .notObject

/-- The registry with a flow published, or as it was when there was none, and which of the two. -/
def passOver (r : Registry) : Except RegisterFault Registry → Except RegisterFault (Registry × Bool)
  | .ok r' => .ok (r', true)
  | .error .notObject | .error (.invalid ..) => .ok (r, false)
  | .error e => .error e

/-- Publish what a file holds, and tell whether it held a flow. -/
def loadFile (r : Registry) (yaml : TextReader) (format : Format) (content : Content) :
    Except LoadFault (Registry × Bool) :=
  (content.find yaml format).bind fun found =>
    (r.passOver (r.publishFound found)).mapError .register

/-- Publish the flows of files one after the other. The count is of those published. -/
def loadFiles (r : Registry) (yaml : TextReader) :
    List (String × Content) → Registry × Except LoadFault Nat
  | [] => (r, .ok 0)
  | (name, content) :: rest =>
    match Format.ofName? name with
    | none => r.loadFiles yaml rest
    | some format =>
      match r.loadFile yaml format content with
      | .error e => (r, .error e)
      | .ok (r, found) =>
        let (r, count) := r.loadFiles yaml rest
        (r, count.map (· + found.toNat))

/-- Publish the flows of a directory. -/
def load (r : Registry) (files : List (String × Content)) (yaml : TextReader := findYaml) :
    Registry × Except LoadFault Nat :=
  r.loadFiles yaml (files.mergeSort fun a b => decide (a.1 ≤ b.1))

end Parley.Registry
