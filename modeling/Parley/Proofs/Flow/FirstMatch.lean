import Parley.Proofs.Flow.Routes
import Parley.Proofs.Value.Entries

/-!
# The first edge with a handle

An edge carries a handle out of a node when it leaves the node and has the handle (`Edge.Carries`).
`f.Directs id handle strict r` is the rule of routing, said of the nodes and edges of the flow in
the order in which they were drawn: the first edge that carries the handle leads on; where none
does, strict routing refuses and lenient routing takes the first edge that leaves the node; and a
node without edges leads nowhere.  An edge leads to the first node with the id that it names, if
there is one.

* `tables_outgoing`, `tables_node?`: a flow is looked up as well in tables that are filled in one
  pass.
* `route_directs_iff`: the router keeps to the rule, but for the empty handle.  That one is taken
  for no handle at all, so the router overlooks the edges that carry it (`Overlooks`).
-/

namespace Parley.Flow

variable {α : Type} {f : Flow} {id handle : String} {strict : Bool}

/-! ### Tables -/

/-- What a flow is looked up in: the nodes by their ids, and the edges by the nodes that they leave.
-/
structure Tables where
  nodes : Entries Node := []
  edges : Entries (List Edge) := []

namespace Tables

/-- A node is entered under its id, unless the id is taken. -/
def enter (nodes : Entries Node) (n : Node) : Entries Node :=
  if nodes.has n.id then nodes else nodes.put n.id n

/-- An edge is added to those that leave the same node. -/
def join (edges : Entries (List Edge)) (e : Edge) : Entries (List Edge) :=
  edges.put e.source ((edges.get? e.source).getD [] ++ [e])

/-- The node with an id. -/
def node? (t : Tables) (id : String) : Option Node := t.nodes.get? id

/-- The edges that leave a node. -/
def outgoing (t : Tables) (id : String) : List Edge := (t.edges.get? id).getD []

end Tables

/-- The tables of a flow. -/
def tables (f : Flow) : Tables where
  nodes := f.nodes.foldl Tables.enter []
  edges := f.edges.foldl Tables.join []

/-- A table of nodes keeps the first node with an id. -/
theorem get?_foldl_enter (ns : List Node) (nodes : Entries Node) (id : String) :
    (ns.foldl Tables.enter nodes).get? id = (nodes.get? id).or (ns.find? (·.id == id)) := by
  induction ns generalizing nodes with
  | nil => simp
  | cons n rest ih =>
      rw [List.foldl_cons, ih, List.find?_cons, Tables.enter]
      by_cases hn : n.id = id
      · subst hn
        cases hget : nodes.get? n.id with
        | some m => simp [Entries.has, hget]
        | none => simp [Entries.has, hget, Entries.get?_put]
      · have hget : (if nodes.has n.id then nodes else nodes.put n.id n).get? id =
            nodes.get? id := by
          split
          · rfl
          · rw [Entries.get?_put, if_neg hn]
        rw [hget, beq_false_of_ne hn]

/-- **The first definition of an id counts.** -/
theorem tables_node? (f : Flow) (id : String) : f.tables.node? id = f.node? id :=
  get?_foldl_enter f.nodes [] id

/-- A table of edges keeps the edges of a node in their order. -/
theorem get?_foldl_join (es : List Edge) (edges : Entries (List Edge)) (id : String) :
    ((es.foldl Tables.join edges).get? id).getD [] =
      (edges.get? id).getD [] ++ es.filter (·.source == id) := by
  induction es generalizing edges with
  | nil => simp
  | cons e rest ih =>
      rw [List.foldl_cons, ih, Tables.join, Entries.get?_put]
      by_cases he : e.source = id
      · subst he
        simp
      · simp [he]

/-- **The edges that leave a node keep their order.** -/
theorem tables_outgoing (f : Flow) (id : String) : f.tables.outgoing id = f.outgoing id :=
  get?_foldl_join f.edges [] id

/-! ### The rule -/

/-- The first of the items that has the property. -/
def IsFirst (p : α → Prop) (xs : List α) (x : α) : Prop :=
  ∃ before after, xs = before ++ x :: after ∧ p x ∧ ∀ y ∈ before, ¬ p y

theorem find?_eq_some_iff_isFirst {p : α → Prop} [DecidablePred p] {xs : List α} {x : α} :
    xs.find? (fun y => decide (p y)) = some x ↔ IsFirst p xs x := by
  rw [List.find?_eq_some_iff_append]
  constructor
  · rintro ⟨hx, before, after, rfl, hbefore⟩
    exact ⟨before, after, rfl, by simpa using hx, fun y hy => by simpa using hbefore y hy⟩
  · rintro ⟨before, after, rfl, hx, hbefore⟩
    exact ⟨by simpa using hx, before, after, rfl, fun y hy => by simpa using hbefore y hy⟩

theorem find?_eq_none_iff_forall_not {p : α → Prop} [DecidablePred p] {xs : List α} :
    xs.find? (fun y => decide (p y)) = none ↔ ∀ y ∈ xs, ¬ p y := by
  simp

/-- The edge leaves the node and has the handle. -/
def Edge.Carries (id handle : String) (e : Edge) :
    Prop := e.source = id ∧ e.sourceHandle = some handle

instance : DecidablePred (Edge.Carries id handle) := fun e =>
  inferInstanceAs (Decidable (e.source = id ∧ e.sourceHandle = some handle))

/-- What an id stands for: the first node that has it, or nothing when none has it. -/
inductive StandsFor (f : Flow) (id : String) : Option Node → Prop where
  | node {n : Node} (h : IsFirst (fun m : Node => m.id = id) f.nodes n) : StandsFor f id (some n)
  | nothing (h : ∀ n ∈ f.nodes, n.id ≠ id) : StandsFor f id none

/-- Where the conversation goes on from a node, for a handle. -/
inductive Directs (f : Flow) (id handle : String) (strict : Bool) :
    Except Fault (Option Node) → Prop where
  /-- By the first edge that carries the handle. -/
  | carried {e : Edge} {n? : Option Node} (he : IsFirst (Edge.Carries id handle) f.edges e)
      (hn : f.StandsFor e.target n?) : Directs f id handle strict (.ok n?)
  | refused (hc : ∀ e ∈ f.edges, ¬ e.Carries id handle) (he : ∃ e ∈ f.edges, e.source = id)
      (hs : strict = true) : Directs f id handle strict (.error (.noRoute id handle))
  /-- By the first edge there is. -/
  | missed {e : Edge} {n? : Option Node} (hc : ∀ e ∈ f.edges, ¬ e.Carries id handle)
      (he : IsFirst (fun e : Edge => e.source = id) f.edges e) (hs : strict = false)
      (hn : f.StandsFor e.target n?) : Directs f id handle strict (.ok n?)
  | ends (he : ∀ e ∈ f.edges, e.source ≠ id) : Directs f id handle strict (.ok none)

/-- An id stands for the first node that has it. -/
theorem standsFor_iff {n? : Option Node} : f.StandsFor id n? ↔ n? = f.node? id := by
  have hfirst (n : Node) : f.node? id = some n ↔ IsFirst (fun m : Node => m.id = id) f.nodes n :=
    find?_eq_some_iff_isFirst
  have hnone : f.node? id = none ↔ ∀ n ∈ f.nodes, n.id ≠ id := find?_eq_none_iff_forall_not
  constructor
  · rintro (⟨h⟩ | ⟨h⟩)
    · exact ((hfirst _).mpr h).symm
    · exact (hnone.mpr h).symm
  · rintro rfl
    cases h : f.node? id with
    | some n => exact .node ((hfirst n).mp h)
    | none => exact .nothing (hnone.mp h)

/-! ### The edges of a node -/

/-- The first edge of a node with a handle is the first one that carries it. -/
theorem find?_outgoing (f : Flow) (id handle : String) :
    (f.outgoing id).find? (·.sourceHandle == some handle) =
      f.edges.find? fun e => decide (e.Carries id handle) := by
  rw [outgoing, List.find?_filter]
  refine congrArg (List.find? · f.edges) (funext fun e => ?_)
  exact decide_eq_decide.mpr (by simp [Edge.Carries])

theorem head?_outgoing (f : Flow) (id : String) :
    (f.outgoing id).head? = f.edges.find? fun e => decide (e.source = id) :=
  List.head?_filter

/-- A node has a handle when an edge carries it. -/
theorem hasHandle_iff :
    f.hasHandle id (some handle) = true ↔ ∃ e ∈ f.edges, e.Carries id handle := by
  simp [hasHandle, outgoing, Edge.Carries]

/-- A node misses a handle that is not empty when it has edges and none carries it. -/
theorem misses_iff : f.Misses id handle ↔
    handle ≠ "" ∧ (∃ e ∈ f.edges, e.source = id) ∧ ∀ e ∈ f.edges, ¬ e.Carries id handle := by
  have hsome : f.outgoing id ≠ [] ↔ ∃ e ∈ f.edges, e.source = id := by
    simp [outgoing, List.filter_eq_nil_iff]
  rw [Misses, hsome]
  simp [outgoing, Edge.Carries]

/-! ### The router -/

/-- The empty handle is overlooked: an edge carries it and leads elsewhere than the first edge of
the node, or no edge carries it and strict routing should refuse it. -/
def Overlooks (f : Flow) (id : String) (strict : Bool) : Prop :=
  ∃ first, IsFirst (fun e : Edge => e.source = id) f.edges first ∧
    ((∃ e, IsFirst (Edge.Carries id "") f.edges e ∧ f.node? e.target ≠ f.node? first.target) ∨
      strict = true ∧ ∀ e ∈ f.edges, ¬ e.Carries id "")

/-- For the empty handle the router takes the first edge of the node. -/
theorem route_empty (f : Flow) (id : String) (strict : Bool) :
    (f.route id "" strict).map (·.1) =
      .ok ((f.edges.find? fun e => decide (e.source = id)).bind fun e => f.node? e.target) := by
  rw [route_eq, if_neg fun h => not_misses_empty h.2, successor?, wayOut?, if_pos rfl,
    head?_outgoing]

/-- A node is followed along the first edge that carries the handle, or else along its first edge.
-/
theorem successor?_eq (hh : handle ≠ "") : f.successor? id handle =
    ((f.edges.find? fun e => decide (e.Carries id handle)).or
      (f.edges.find? fun e => decide (e.source = id))).bind fun e => f.node? e.target := by
  rw [successor?, wayOut?, if_neg hh, find?_outgoing, head?_outgoing]

/-- Every result that the rule allows is one and the same. -/
theorem directs_iff {r : Except Fault (Option Node)} : f.Directs id handle strict r ↔
    r = match f.edges.find? fun e => decide (e.Carries id handle) with
      | some e => .ok (f.node? e.target)
      | none => match f.edges.find? fun e => decide (e.source = id) with
        | some e => if strict then .error (.noRoute id handle) else .ok (f.node? e.target)
        | none => .ok none := by
  have hcarried := @find?_eq_some_iff_isFirst _ (Edge.Carries id handle) _ f.edges
  have hfirst := @find?_eq_some_iff_isFirst _ (fun e : Edge => e.source = id) _ f.edges
  have hnone := @find?_eq_none_iff_forall_not _ (Edge.Carries id handle) _ f.edges
  have hends := @find?_eq_none_iff_forall_not _ (fun e : Edge => e.source = id) _ f.edges
  constructor
  · intro h
    cases h with
    | carried he hn => rw [hcarried.mpr he, standsFor_iff.mp hn]
    | refused hc he hs =>
        obtain ⟨e, hmem, he⟩ := he
        cases hf : f.edges.find? fun e => decide (e.source = id) with
        | none => exact absurd he (hends.mp hf e hmem)
        | some first => rw [hnone.mpr hc, hs]; rfl
    | missed hc he hs hn => rw [hnone.mpr hc, hfirst.mpr he, hs, standsFor_iff.mp hn]; rfl
    | ends he =>
        have hc : ∀ e ∈ f.edges, ¬ e.Carries id handle := fun e hmem hc => he e hmem hc.1
        rw [hnone.mpr hc, hends.mpr he]
  · rintro rfl
    -- the other way round, the two searches decide which case it is
    cases hf : f.edges.find? fun e => decide (e.Carries id handle) with
    | some e => exact .carried (hcarried.mp hf) (standsFor_iff.mpr rfl)
    | none =>
        cases hf' : f.edges.find? fun e => decide (e.source = id) with
        | none => exact .ends (hends.mp hf')
        | some first =>
            cases hs : strict with
            | true =>
                have hmem := List.mem_of_find?_eq_some hf'
                have hsource : first.source = id := by simpa using List.find?_some hf'
                exact .refused (hnone.mp hf) ⟨first, hmem, hsource⟩ rfl
            | false => exact .missed (hnone.mp hf) (hfirst.mp hf') rfl (standsFor_iff.mpr rfl)

/-- **A handle that is not empty is routed by the rule.** -/
theorem route_directs (hh : handle ≠ "") :
    f.Directs id handle strict ((f.route id handle strict).map (·.1)) := by
  rw [directs_iff, route_eq, successor?_eq hh]
  cases hf : f.edges.find? fun e => decide (e.Carries id handle) with
  | some e =>
      have hm : ¬ f.Misses id handle := fun h =>
        (misses_iff.mp h).2.2 e (List.mem_of_find?_eq_some hf) (by simpa using List.find?_some hf)
      rw [if_neg fun h => hm h.2]
      rfl
  | none =>
      have hc := find?_eq_none_iff_forall_not.mp hf
      cases hf' : f.edges.find? fun e => decide (e.source = id) with
      | none =>
          have hm : ¬ f.Misses id handle := fun h => by
            obtain ⟨e, hmem, he⟩ := (misses_iff.mp h).2.1
            exact find?_eq_none_iff_forall_not.mp hf' e hmem he
          rw [if_neg fun h => hm h.2]
          rfl
      | some first =>
          have hsource : first.source = id := by simpa using List.find?_some hf'
          have hm : f.Misses id handle :=
            misses_iff.mpr ⟨hh, ⟨first, List.mem_of_find?_eq_some hf', hsource⟩, hc⟩
          cases strict with
          | true => rw [if_pos ⟨rfl, hm⟩]; rfl
          | false => rw [if_neg fun h => Bool.false_ne_true h.1]; rfl

/-- The empty handle is routed by the rule unless it is overlooked. -/
theorem route_empty_directs_iff :
    f.Directs id "" strict ((f.route id "" strict).map (·.1)) ↔ ¬ f.Overlooks id strict := by
  have hcarried := @find?_eq_some_iff_isFirst _ (Edge.Carries id "") _ f.edges
  have hfirst := @find?_eq_some_iff_isFirst _ (fun e : Edge => e.source = id) _ f.edges
  have hnone := @find?_eq_none_iff_forall_not _ (Edge.Carries id "") _ f.edges
  rw [directs_iff, route_empty]
  unfold Overlooks
  simp only [← hcarried, ← hfirst, ← hnone]
  cases hf' : f.edges.find? fun e => decide (e.source = id) with
  | none =>
      -- whatever leaves the node for the empty handle leaves it
      have hc : f.edges.find? (fun e => decide (e.Carries id "")) = none := by
        exact hnone.mpr fun e hmem hc => find?_eq_none_iff_forall_not.mp hf' e hmem hc.1
      simp [hc]
  | some first =>
      cases hf : f.edges.find? fun e => decide (e.Carries id "") with
      | some e => simp [eq_comm]
      | none => cases strict <;> simp

/-- **First match in the order of drawing.**  The tables of a flow tell what the flow tells, a node
has a handle when an edge carries it, and the router keeps to the rule exactly where it does not
overlook the empty handle; for the empty handle it takes the first edge of the node, strict or not.
-/
theorem route_directs_iff (f : Flow) (id handle : String) (strict : Bool) :
    (∀ id, f.tables.node? id = f.node? id ∧ f.tables.outgoing id = f.outgoing id) ∧
    (f.hasHandle id (some handle) = true ↔ ∃ e ∈ f.edges, e.Carries id handle) ∧
    (f.Directs id handle strict ((f.route id handle strict).map (·.1)) ↔
      ¬ (handle = "" ∧ f.Overlooks id strict)) ∧
    (f.route id "" strict).map (·.1) =
      .ok ((f.edges.find? fun e => decide (e.source = id)).bind fun e => f.node? e.target) := by
  refine ⟨fun id => ⟨tables_node? f id, tables_outgoing f id⟩, hasHandle_iff, ?_,
    route_empty f id strict⟩
  by_cases hh : handle = ""
  · subst hh
    simpa using route_empty_directs_iff
  · exact iff_of_true (route_directs hh) fun h => hh h.1

/-! A menu of ways to pay, of which the second has no id: its edge carries the empty handle. -/

/-- The two ways to pay, and where they lead. -/
def payments : Flow where
  id := "payments"
  nodes := [
    { id := "start", block := .start {} },
    { id := "menu", block := .menu
        { options := [{ id := "card", label := "Card" }, { id := "", label := "Another way" }] } },
    { id := "card", block := .message { message := "Enter your card." } },
    { id := "other", block := .message { message := "Somebody will write to you." } }]
  edges := [
    { id := "e1", source := "start", target := "menu" },
    { id := "e2", source := "menu", target := "card", sourceHandle := some "card" },
    { id := "e3", source := "menu", target := "other", sourceHandle := some "" }]

theorem payments_overlooks (strict : Bool) : payments.Overlooks "menu" strict := by
  refine ⟨{ id := "e2", source := "menu", target := "card", sourceHandle := some "card" },
    find?_eq_some_iff_isFirst.mp rfl, .inl
    ⟨{ id := "e3", source := "menu", target := "other", sourceHandle := some "" },
      find?_eq_some_iff_isFirst.mp rfl, fun h => ?_⟩⟩
  exact absurd (congrArg (Option.map Node.id) h) (by decide)

theorem route_directs_iff_payments : ∀ strict, payments.hasHandle "menu" (some "") = true ∧
    ¬ payments.Directs "menu" "" strict ((payments.route "menu" "" strict).map (·.1)) := by
  intro strict
  obtain ⟨-, hhas, hroute, -⟩ := route_directs_iff payments "menu" "" strict
  refine ⟨hhas.mpr ?_, fun h => hroute.mp h ⟨rfl, payments_overlooks strict⟩⟩
  exact ⟨{ id := "e3", source := "menu", target := "other", sourceHandle := some "" },
    .tail _ (.tail _ (.head _)), rfl, rfl⟩

end Parley.Flow
