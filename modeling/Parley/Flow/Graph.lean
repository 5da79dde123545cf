import Parley.Fault
import Parley.Flow.Basic

/-!
# The graph of a flow

Nodes are found by id, of several with one id the first. Edges that leave a node keep the order in
which they were drawn. `Flow.route` picks the successor of a node: the target of the first edge with
the handle, or, when no edge has it, of the first edge; strict routing refuses that.

`Flow.defects` lists what keeps a flow from being run. Both say besides what they find odd
(`Warning`).
-/

namespace Parley.Flow

/-- Something odd about a flow that does not stop it. -/
inductive Warning where
  /-- No edge carries the handle, and the first edge was taken. -/
  | handleMissing (flow node handle fallback : String)
  /-- An edge leads to no node. -/
  | danglingEdge (flow edge source target : String)
  /-- Nodes are of unknown kinds. -/
  | unknownKinds (flow : String) (nodes : List String)
  /-- Choices of menus have no edge of their own. -/
  | unroutedChoices (flow : String) (choices : List String)
  deriving DecidableEq, Repr

/-- The node with an id. -/
def node? (f : Flow) (id : String) : Option Node := f.nodes.find? (·.id == id)

/-- The first start node. -/
def startNode? (f : Flow) : Option Node := f.nodes.find? (·.isStart)

/-- The edges that leave a node. -/
def outgoing (f : Flow) (id : String) : List Edge := f.edges.filter (·.source == id)

/-- An edge that leaves a node has the handle. -/
def hasHandle (f : Flow) (id : String) (handle : Option String) : Bool :=
  (f.outgoing id).any (·.sourceHandle == handle)

/-- The edge out of a node for a handle, where an empty handle is none. -/
def edgeFor (f : Flow) (id handle : String) (strict : Bool) (first : Edge) (edges : List Edge) :
    Except Fault (Edge × List Warning) :=
  if handle = "" then .ok (first, [])
  else match edges.find? (·.sourceHandle == some handle) with
    | some e => .ok (e, [])
    | none =>
      if strict then .error (.noRoute id handle)
      else .ok (first, [.handleMissing f.id id handle first.target])

/-- The node that an edge out of `id` leads to. -/
def follow (f : Flow) (id : String) (e : Edge) : Option Node × List Warning :=
  match f.node? e.target with
  | some n => (some n, [])
  | none => (none, [.danglingEdge f.id e.id id e.target])

/-- The successor of a node for a handle. -/
def route (f : Flow) (id handle : String) (strict : Bool) :
    Except Fault (Option Node × List Warning) :=
  match f.outgoing id with
  | [] => .ok (none, [])
  | first :: rest => do
    let (e, missed) ← f.edgeFor id handle strict first (first :: rest)
    let (target, dangling) := f.follow id e
    return (target, missed ++ dangling)

/-- The items that occur more than once, each once, in the order of their first occurrence. -/
def repeated (ids : List String) : List String := ids.eraseDups.filter fun a => 1 < ids.count a

/-- Why a flow cannot be run. -/
inductive Defect where
  | noStart
  | manyStarts (ids : List String)
  | duplicateId (id : String)
  | unknownSource (edge source : String)
  | unknownTarget (edge target : String)
  deriving DecidableEq, Repr

/-- The text of a defect. -/
def Defect.message : Defect → String
  | .noStart => "flow has no start node"
  | .manyStarts ids =>
    "flow has " ++ Number.natText ids.length ++ " start nodes: " ++ ", ".intercalate ids
  | .duplicateId id => "duplicate node id '" ++ id ++ "'"
  | .unknownSource edge source => "edge '" ++ edge ++ "' references unknown source '" ++
      source ++ "'"
  | .unknownTarget edge target => "edge '" ++ edge ++ "' references unknown target '" ++
      target ++ "'"

/-- Defects of the start nodes. -/
def startDefects (f : Flow) : List Defect :=
  match (f.nodes.filter (·.isStart)).map (·.id) with
  | [] => [.noStart]
  | [_] => []
  | ids => [.manyStarts ids]

/-- Defects of the ends of an edge. -/
def edgeDefects (f : Flow) (e : Edge) : List Defect :=
  (if (f.node? e.source).isNone then [.unknownSource e.id e.source] else []) ++
    (if (f.node? e.target).isNone then [.unknownTarget e.id e.target] else [])

/-- Why the flow cannot be run. -/
def defects (f : Flow) : List Defect :=
  f.startDefects ++ (repeated (f.nodes.map (·.id))).map .duplicateId ++
    f.edges.flatMap f.edgeDefects

/-- The choices of a node's menu that no edge of its own leaves, when there are edges at all. -/
def unroutedChoices (f : Flow) (n : Node) : List String :=
  match n.block with
  | .menu d =>
    if (f.outgoing n.id).isEmpty then []
    else (d.options.filter fun c => !f.hasHandle n.id (some c.id)).map fun c => n.id ++ ":" ++ c.id
  | _ => []

/-- The node is of an unknown kind. -/
def Node.isUnknown (n : Node) : Bool :=
  match n.block with
  | .unknown .. => true
  | _ => false

/-- What is odd about the flow as a whole. -/
def oddities (f : Flow) : List Warning :=
  let unknown := (f.nodes.filter Node.isUnknown).map (·.id)
  let unrouted := f.nodes.flatMap f.unroutedChoices
  (if unknown.isEmpty then [] else [.unknownKinds f.id unknown]) ++
    (if unrouted.isEmpty then [] else [.unroutedChoices f.id unrouted])

/-- A node without edges has no successor. -/
theorem route_of_outgoing_eq_nil {f : Flow} {id : String} (h : f.outgoing id = []) (handle : String)
    (strict : Bool) : f.route id handle strict = .ok (none, []) := by
  simp [route, h]

end Parley.Flow
