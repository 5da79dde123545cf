import Parley.Flow.Graph
import Parley.Flow.Reading
import Parley.Text.Case

/-!
# The registry of flows

The registry holds the published flows in the order of their first registration, and every version
that was ever registered, so that conversations begun on a version go on with it. A flow with a
defect is refused and changes nothing.

`Registry.resolve` chooses the flow for a message: the first active one with a keyword that occurs
in it, without regard to case; else the first active default; else the first active one without
keywords.
-/

namespace Parley

/-- The index of a flow. It is made anew each time its version is registered, and the edition tells
it from those made for the version before. -/
structure Registry.Index where
  flow : Flow
  edition : Nat := 0

/-- The index of a flow that is registered for the first time. -/
instance : Coe Flow Registry.Index where
  coe flow := { flow := flow }

/-- The published flows. -/
structure Registry where
  flows : Entries Flow := []
  versions : List ((String × Int) × Registry.Index) := []

namespace Registry

/-- Why a flow is not registered. -/
inductive RegisterFault where
  /-- What was given is no object. -/
  | notObject
  /-- The kind of a node is a list or an object. -/
  | compoundKind
  /-- The flow is malformed or has defects; `id` is what it states as its id. -/
  | invalid (id : Value) (errors : List String)

/-- A flow from a document. -/
def parse (raw : Value) : Except RegisterFault Flow :=
  match Flow.ofValue raw with
  | .ok f => .ok f
  | .error .compoundKind => .error .compoundKind
  | .error (.refused cs) =>
    .error (.invalid ((raw.field? "id").getD (.text "?")) (cs.map Schema.Complaint.text))

/-- Write one version. -/
def putVersion (key : String × Int) (f : Flow) :
    List ((String × Int) × Index) → List ((String × Int) × Index)
  | [] => [(key, { flow := f })]
  | (k, i) :: rest =>
    if k = key then (k, { flow := f, edition := i.edition + 1 }) :: rest
    else (k, i) :: putVersion key f rest

/-- Publish a flow, which replaces older versions. -/
def add (r : Registry) (f : Flow) : Except RegisterFault Registry :=
  match f.defects with
  | [] => .ok { flows := r.flows.put f.id f, versions := putVersion (f.id, f.version) f r.versions }
  | ds => .error (.invalid (.text f.id) (ds.map Flow.Defect.message))

/-- Publish a flow from a document. -/
def register (r : Registry) (raw : Value) : Except RegisterFault (Registry × Flow) :=
  match raw with
  | .object _ => do
    let f ← parse raw
    return (← r.add f, f)
  | _ => .error .notObject

/-- Publish several documents. Invalid ones are passed over; with other faults the rest is given up,
and what is published already stays. The count is of those published. -/
def registerAll (r : Registry) : List Value → Registry × Except RegisterFault Nat
  | [] => (r, .ok 0)
  | raw :: rest =>
    match r.register raw with
    | .ok (r, _) =>
      let (r, count) := r.registerAll rest
      (r, count.map (· + 1))
    | .error (.invalid ..) => r.registerAll rest
    | .error e => (r, .error e)

/-- The published flow with an id. -/
def get? (r : Registry) (id : String) : Option Flow := r.flows.get? id

/-- Take a flow back; its versions stay. -/
def remove (r : Registry) (id : String) : Registry := { r with flows := r.flows.remove id }

/-- The index of a version. -/
def index? (r : Registry) (id : String) (version : Int) : Option Index :=
  r.versions.lookup (id, version)

/-- A version of a flow. -/
def version? (r : Registry) (id : String) (version : Int) : Option Flow :=
  (r.index? id version).map (·.flow)

/-- The published version of a flow. -/
def current? (r : Registry) (id : String) : Option Flow :=
  (r.get? id).bind fun f => r.version? id f.version

/-- The published flows in order. -/
def all (r : Registry) : List Flow := r.flows.map (·.2)

/-- A keyword occurs in the text, which is in lower case; the empty keyword does not count. -/
def keywordIn (lowered keyword : String) : Bool :=
  keyword != "" && Text.contains (Text.lower keyword) lowered

/-- The flow for a message that names none. -/
def resolveText (r : Registry) (text : String) : Option Flow :=
  let active := r.all.filter (·.isActive)
  let lowered := Text.lower text
  let named := if lowered = "" then none else active.find? (·.startKeywords.any (keywordIn lowered))
  (named.or (active.find? (·.isDefault))).or (active.find? (·.startKeywords.isEmpty))

/-- The flow for a message. -/
def resolve (r : Registry) (text flowId : String) : Option Flow :=
  if flowId = "" then r.resolveText text else r.get? flowId

end Registry
end Parley
