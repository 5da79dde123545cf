import Mathlib.Data.List.Nodup
import Parley.Flow.Graph

/-!
# Nodes and the edges between them

What a flow finds under an id, and where it goes on from a node.  Without defects every node is the
one found under its id, and every edge leads to a node.
-/

/-!
## The nodes of a flow without defects

Nodes are found by id, the first of several with one id, and the empty id is the one that a session
has before its first step.  In a flow without defects no two nodes share an id, so every node is
the one found under its id (`node?_id`).

`f.Tells n`: a session that stands at `n` can be told apart: `n` is found under its id, and if that
id is empty then `n` is the start node, where a session that stands nowhere begins.
-/

namespace Parley.Flow

/-- A node that is found is one of the flow, with the id. -/
theorem node?_eq_some {f : Flow} {id : String} {n : Node} (h : f.node? id = some n) :
    n ∈ f.nodes ∧ n.id = id :=
  ⟨List.mem_of_find?_eq_some h, by simpa using List.find?_some h⟩

theorem startNode?_eq_some {f : Flow} {n : Node} (h : f.startNode? = some n) :
    n ∈ f.nodes ∧ n.isStart = true :=
  ⟨List.mem_of_find?_eq_some h, List.find?_some h⟩

/-- An id is repeated when it is there more than once. -/
theorem mem_repeated_iff {ids : List String} {id : String} :
    id ∈ repeated ids ↔ 1 < ids.count id := by
  rw [repeated, List.mem_filter, List.mem_eraseDups, decide_eq_true_iff]
  exact and_iff_right_of_imp fun h => List.count_pos_iff.mp (Nat.lt_of_succ_lt h)

theorem repeated_eq_nil_iff {ids : List String} : repeated ids = [] ↔ ids.Nodup := by
  rw [List.eq_nil_iff_forall_not_mem, List.nodup_iff_count]
  simp only [mem_repeated_iff, Nat.not_lt]

/-- A flow without defects has no two nodes with one id. -/
theorem nodup_ids {f : Flow} (h : f.defects = []) : (f.nodes.map (·.id)).Nodup := by
  have hr : (repeated (f.nodes.map (·.id))).map Defect.duplicateId = [] :=
    (List.append_eq_nil_iff.mp (List.append_eq_nil_iff.mp h).1).2
  exact repeated_eq_nil_iff.mp (List.map_eq_nil_iff.mp hr)

/-- Without defects a flow has a start node. -/
theorem exists_startNode? {f : Flow} (h : f.defects = []) : ∃ n, f.startNode? = some n := by
  have hs : f.startDefects = [] := (List.append_eq_nil_iff.mp (List.append_eq_nil_iff.mp h).1).1
  cases hn : f.startNode? with
  | some n => exact ⟨n, rfl⟩
  | none =>
      have hnone : f.nodes.filter (·.isStart) = [] :=
        List.filter_eq_nil_iff.mpr (by simpa [startNode?] using hn)
      simp [startDefects, hnone] at hs

/-- **Without defects every node is the one found under its id.** -/
theorem node?_id {f : Flow} (h : f.defects = []) {n : Node} (hn : n ∈ f.nodes) :
    f.node? n.id = some n := by
  cases hm : f.node? n.id with
  | none =>
      have := List.find?_eq_none.mp hm n hn
      simp at this
  | some m =>
      obtain ⟨hmem, hid⟩ := node?_eq_some hm
      exact congrArg some (List.inj_on_of_nodup_map (nodup_ids h) hmem hn hid)

/-- The flow tells a session that stands at `n` from the others. -/
structure Tells (f : Flow) (n : Node) : Prop where
  node : f.node? n.id = some n
  start : n.id = "" → f.startNode? = some n

theorem Tells.of_node? {f : Flow} {id : String} {n : Node} (h : f.node? id = some n)
    (hid : id ≠ "") : f.Tells n := by
  obtain ⟨-, rfl⟩ := node?_eq_some h
  exact ⟨h, fun he => absurd he hid⟩

/-- A flow without defects tells its start node. -/
theorem Tells.of_startNode? {f : Flow} (hd : f.defects = []) {n : Node}
    (h : f.startNode? = some n) : f.Tells n :=
  ⟨node?_id hd (startNode?_eq_some h).1, fun _ => h⟩

end Parley.Flow

/-!
## Where the edges of a node lead

`f.wayOut? id handle` is the edge by which a node is left for a handle: the first one that has the
handle, and the first one of all where none has it or there is no handle to go by.
`f.successor? id handle` is the node at its other end.  `f.Misses id handle`: the node has edges,
and none of them has the handle.

Strict routing and lenient routing are one rule (`route_eq`): strict routing refuses what misses,
and otherwise both lead to the successor.  In a flow without defects every edge leads to a node, so
a node with an edge has a successor (`successor?_isSome`).
-/

namespace Parley.Flow

variable {f : Flow} {id handle : String}

/-- The edge by which a node is left for a handle. -/
def wayOut? (f : Flow) (id handle : String) : Option Edge :=
  if handle = "" then (f.outgoing id).head?
  else ((f.outgoing id).find? (·.sourceHandle == some handle)).or (f.outgoing id).head?

/-- The node that follows for a handle. -/
def successor? (f : Flow) (id handle : String) : Option Node :=
  (f.wayOut? id handle).bind fun e => f.node? e.target

/-- The node has edges, but none with the handle. -/
def Misses (f : Flow) (id handle : String) : Prop :=
  handle ≠ "" ∧ f.outgoing id ≠ [] ∧ ∀ e ∈ f.outgoing id, e.sourceHandle ≠ some handle

instance : Decidable (f.Misses id handle) :=
  inferInstanceAs (Decidable (handle ≠ "" ∧ f.outgoing id ≠ [] ∧
    ∀ e ∈ f.outgoing id, e.sourceHandle ≠ some handle))

theorem not_misses_empty : ¬ f.Misses id "" := fun h => h.1 rfl

/-- The node at the end of an edge. -/
theorem follow_fst (f : Flow) (id : String) (e : Edge) : (f.follow id e).1 = f.node? e.target := by
  unfold follow
  cases f.node? e.target <;> rfl

/-- **The rule of the router.**  Strict routing refuses a handle that misses; otherwise the node
goes on to its successor. -/
theorem route_eq (f : Flow) (id handle : String) (strict : Bool) :
    (f.route id handle strict).map (·.1) =
      if strict = true ∧ f.Misses id handle then .error (.noRoute id handle)
      else .ok (f.successor? id handle) := by
  cases hout : f.outgoing id with
  | nil =>
      have hm : ¬ f.Misses id handle := fun h => h.2.1 hout
      rw [if_neg fun h => hm h.2]
      simp [route, successor?, wayOut?, hout, Except.map]
  | cons first rest =>
      by_cases hh : handle = ""
      · subst hh
        rw [if_neg fun h => not_misses_empty h.2]
        simp [route, edgeFor, successor?, wayOut?, hout, Except.map, bind, Except.bind, follow_fst,
          pure, Except.pure]
      -- the edge of the handle counts, and the first edge where the handle has none
      · cases hf : (first :: rest).find? (·.sourceHandle == some handle) with
        | some e =>
            have hmem : e ∈ f.outgoing id := hout ▸ List.mem_of_find?_eq_some hf
            have hhas : e.sourceHandle = some handle := by simpa using List.find?_some hf
            rw [if_neg fun h => h.2.2.2 e hmem hhas]
            simp [route, edgeFor, successor?, wayOut?, hout, hf, hh, Except.map, bind, Except.bind,
              follow_fst, pure, Except.pure]
        | none =>
            have hm : f.Misses id handle := by
              refine ⟨hh, by simp [hout], ?_⟩
              intro e he
              simpa using List.find?_eq_none.mp hf e (hout ▸ he)
            cases strict with
            | true =>
                rw [if_pos ⟨rfl, hm⟩]
                simp [route, edgeFor, hout, hf, hh, Except.map, bind, Except.bind]
            | false =>
                rw [if_neg fun h => Bool.false_ne_true h.1]
                simp [route, edgeFor, successor?, wayOut?, hout, hf, hh, Except.map, bind,
                  Except.bind, follow_fst, pure, Except.pure]

/-- The edge by which a node is left is one of its own. -/
theorem mem_of_wayOut? {e : Edge} (h : f.wayOut? id handle = some e) : e ∈ f.outgoing id := by
  unfold wayOut? at h
  split at h
  · exact List.mem_of_mem_head? h
  · cases hf : (f.outgoing id).find? (·.sourceHandle == some handle) with
    | some e' =>
        rw [hf, Option.some_or] at h
        cases h
        exact List.mem_of_find?_eq_some hf
    | none =>
        rw [hf, Option.none_or] at h
        exact List.mem_of_mem_head? h

/-- A node with an edge is left by some edge, whatever the handle. -/
theorem wayOut?_isSome (h : f.outgoing id ≠ []) : ∃ e, f.wayOut? id handle = some e := by
  obtain ⟨first, rest, hout⟩ := List.exists_cons_of_ne_nil h
  unfold wayOut?
  rw [hout]
  split
  · exact ⟨first, rfl⟩
  · cases (first :: rest).find? (·.sourceHandle == some handle) with
    | some e => exact ⟨e, rfl⟩
    | none => exact ⟨first, rfl⟩

/-- Whoever follows a node is at the end of its way out. -/
theorem successor?_eq_some {m : Node} (h : f.successor? id handle = some m) :
    ∃ e ∈ f.outgoing id, f.wayOut? id handle = some e ∧ f.node? e.target = some m := by
  obtain ⟨e, he, hm⟩ := Option.bind_eq_some_iff.mp h
  exact ⟨e, mem_of_wayOut? he, he, hm⟩

/-- Without defects every edge leads to a node. -/
theorem node?_target {e : Edge} (hd : f.defects = []) (he : e ∈ f.edges) :
    ∃ m, f.node? e.target = some m := by
  have hedges : f.edges.flatMap f.edgeDefects = [] := (List.append_eq_nil_iff.mp hd).2
  have hends : f.edgeDefects e = [] := List.flatMap_eq_nil_iff.mp hedges e he
  cases hm : f.node? e.target with
  | some m => exact ⟨m, rfl⟩
  | none =>
      have htarget := (List.append_eq_nil_iff.mp hends).2
      simp [hm] at htarget

/-- **Without defects a node with an edge has a successor.** -/
theorem successor?_isSome (hd : f.defects = []) (h : f.outgoing id ≠ []) :
    ∃ m, f.successor? id handle = some m := by
  obtain ⟨e, he⟩ : ∃ e, f.wayOut? id handle = some e := wayOut?_isSome h
  obtain ⟨m, hm⟩ := node?_target hd (List.mem_of_mem_filter (mem_of_wayOut? he))
  exact ⟨m, by simp [successor?, he, hm]⟩

end Parley.Flow
