import Parley.Proofs.Flow.FirstMatch

/-!
# What keeps a flow from being run

A flow is well formed (`f.WellFormed`) when it has one start node, no two of its nodes share an id,
and its edges lead from nodes to nodes.  What is wrong with a flow that is not is told in three
parts:

* `f.StartsTold defects`: nothing of one start node, and one error of none and of several;
* `f.Repeats ids`: the ids that occur more than once, each once, in the order in which they first
  occur;
* `f.looseEnds`: the ends of edges that name no node, in the order of the edges, and of each edge
  its source before its target.

Whether an id is known is looked up in tables that keep one node for each id, which lose none of the
ids (`tables_node?_isSome_iff`).
-/

namespace Parley.Flow

variable {f : Flow}

/-- The ids of the nodes. -/
def ids (f : Flow) : List String := f.nodes.map (·.id)

/-- The ids of the start nodes. -/
def starts (f : Flow) : List String := (f.nodes.filter (·.isStart)).map (·.id)

/-- The flow can be run. -/
structure WellFormed (f : Flow) : Prop where
  start : f.nodes.countP (·.isStart) = 1
  distinct : f.nodes.Pairwise fun m n => m.id ≠ n.id
  edges : ∀ e ∈ f.edges, (∃ n ∈ f.nodes, n.id = e.source) ∧ ∃ n ∈ f.nodes, n.id = e.target

/-- There is no node for an id that no node has. -/
theorem node?_isNone_iff {id : String} : (f.node? id).isNone = true ↔ id ∉ f.ids := by
  simp [node?, ids]

theorem mem_ids_iff {id : String} : id ∈ f.ids ↔ ∃ n ∈ f.nodes, n.id = id := List.mem_map

/-- The tables have a node under an id exactly when some node has the id. -/
theorem tables_node?_isSome_iff {id : String} : (f.tables.node? id).isSome = true ↔ id ∈ f.ids := by
  rw [tables_node?, ← Option.not_isNone, Bool.not_eq_true', ← Bool.not_eq_true,
    node?_isNone_iff, not_not]

/-! ### The start nodes -/

/-- What is wrong with the number of the start nodes. -/
inductive StartsTold (f : Flow) : List Defect → Prop where
  | one (h : f.starts.length = 1) : StartsTold f []
  | none (h : f.starts.length = 0) : StartsTold f [.noStart]
  | many (h : 1 < f.starts.length) : StartsTold f [.manyStarts f.starts]

theorem length_starts (f : Flow) : f.starts.length = f.nodes.countP (·.isStart) := by
  rw [starts, List.length_map, List.countP_eq_length_filter]

/-- The start nodes are told unless there is one. -/
theorem startsTold (f : Flow) : f.StartsTold f.startDefects := by
  have hstarts : (f.nodes.filter (·.isStart)).map (·.id) = f.starts := rfl
  unfold startDefects
  rw [hstarts]
  split
  · next h => exact .none (by rw [h]; rfl)
  · next h => exact .one (by rw [h]; rfl)
  · next hnone hone =>
    refine .many (Nat.one_lt_iff_ne_zero_and_ne_one.mpr ⟨fun h => ?_, fun h => ?_⟩)
    · exact hnone (List.length_eq_zero_iff.mp h)
    · obtain ⟨id, hid⟩ := List.length_eq_one_iff.mp h
      exact hone id hid

theorem startDefects_eq_nil_iff : f.startDefects = [] ↔ f.nodes.countP (·.isStart) = 1 := by
  rw [← length_starts]
  have htold := f.startsTold
  generalize f.startDefects = defects at htold
  cases htold with
  | one h => simp [h]
  | none h => simp [h]
  | many h => simp [Nat.ne_of_gt h]

/-! ### The ids -/

section Repeated

variable {ids : List String}

/-- What comes first among some ids comes first among all. -/
theorem idxOf_lt_of_filter {p : String → Bool} {a b : String} (ha : p a = true) (hb : p b = true)
    (h : (ids.filter p).idxOf a < (ids.filter p).idxOf b) : ids.idxOf a < ids.idxOf b := by
  induction ids with
  | nil => simp at h
  | cons c rest ih =>
      by_cases hca : c = a
      · subst hca
        have hcb : c ≠ b := by
          rintro rfl
          exact Nat.lt_irrefl _ h
        rw [List.idxOf_cons_self, List.idxOf_cons_ne _ hcb]
        exact Nat.succ_pos _
      · by_cases hcb : c = b
        · subst hcb
          rw [List.filter_cons_of_pos hb, List.idxOf_cons_self] at h
          exact absurd h (Nat.not_lt_zero _)
        · rw [List.idxOf_cons_ne _ hca, List.idxOf_cons_ne _ hcb]
          refine Nat.succ_lt_succ (ih ?_)
          cases hc : p c with
          | false => rwa [List.filter_cons_of_neg (by simp [hc])] at h
          | true =>
              rw [List.filter_cons_of_pos hc, List.idxOf_cons_ne _ hca,
                List.idxOf_cons_ne _ hcb] at h
              exact Nat.lt_of_succ_lt_succ h

/-- Without what is repeated a list keeps the order in which the items first occur. -/
theorem pairwise_eraseDups (ids : List String) :
    ids.eraseDups.Pairwise fun a b => ids.idxOf a < ids.idxOf b := by
  match ids with
  | [] => exact .nil
  | c :: rest =>
      rw [List.eraseDups_cons]
      have hkept {a : String} (ha : a ∈ (rest.filter fun b => !b == c).eraseDups) :
          (!a == c) = true :=
        (List.mem_filter.mp (List.mem_eraseDups.mp ha)).2
      have hne {a : String} (ha : a ∈ (rest.filter fun b => !b == c).eraseDups) : c ≠ a := by
        rintro rfl
        simpa using hkept ha
      refine .cons (fun a ha => ?_) ((pairwise_eraseDups (rest.filter _)).imp_of_mem ?_)
      · rw [List.idxOf_cons_self, List.idxOf_cons_ne _ (hne ha)]
        exact Nat.succ_pos _
      · intro a b ha hb hab
        rw [List.idxOf_cons_ne _ (hne ha), List.idxOf_cons_ne _ (hne hb)]
        exact Nat.succ_lt_succ (idxOf_lt_of_filter (hkept ha) (hkept hb) hab)
termination_by ids.length
decreasing_by exact Nat.lt_succ_of_le (List.length_filter_le ..)

end Repeated

/-- The ids that occur more than once, in the order in which they first occur. -/
structure Repeats (f : Flow) (repeated : List String) : Prop where
  mem_iff (id : String) : id ∈ repeated ↔ 1 < f.ids.count id
  order : repeated.Pairwise fun a b => f.ids.idxOf a < f.ids.idxOf b

/-- The ids that are told are those that are repeated, in their order. -/
theorem repeats (f : Flow) : f.Repeats (repeated f.ids) where
  mem_iff _ := mem_repeated_iff
  order := (pairwise_eraseDups f.ids).filter _

/-- No id is told twice. -/
theorem Repeats.nodup {ids : List String} (h : f.Repeats ids) : ids.Nodup :=
  h.order.imp fun {_ _} hlt he => Nat.ne_of_lt hlt (congrArg (f.ids.idxOf ·) he)

/-! ### The ends of the edges -/

/-- The two ends of an edge. -/
inductive Side where
  | source
  | target

/-- The id that an edge has at one of its ends. -/
def Edge.on (e : Edge) : Side → String
  | .source => e.source
  | .target => e.target

/-- What is wrong with an end that names no node. -/
def Edge.defect (e : Edge) : Side → Defect
  | .source => .unknownSource e.id e.source
  | .target => .unknownTarget e.id e.target

/-- The ends of an edge, its source first. -/
def Edge.ends (e : Edge) : List (Edge × Side) := [(e, .source), (e, .target)]

/-- The ends of all edges, in the order of the edges. -/
def ends (f : Flow) : List (Edge × Side) := f.edges.flatMap Edge.ends

/-- The ends that name no node. -/
def looseEnds (f : Flow) : List (Edge × Side) := f.ends.filter fun p => p.1.on p.2 ∉ f.ids

/-- An edge is told for each of its ends that no node has. -/
theorem edgeDefects_eq (f : Flow) (e : Edge) : f.edgeDefects e =
    (e.ends.filter fun p => p.1.on p.2 ∉ f.ids).map fun p => p.1.defect p.2 := by
  unfold edgeDefects
  simp only [node?_isNone_iff]
  by_cases hs : e.source ∈ f.ids <;> by_cases ht : e.target ∈ f.ids <;>
    simp [hs, ht, Edge.ends, Edge.on, Edge.defect]

/-- **The errors of the edges** are those of their loose ends, in order. -/
theorem flatMap_edgeDefects (f : Flow) :
    f.edges.flatMap f.edgeDefects = f.looseEnds.map fun p => p.1.defect p.2 := by
  rw [looseEnds, ends, List.filter_flatMap, List.map_flatMap]
  exact congrArg (fun g => f.edges.flatMap g) (funext f.edgeDefects_eq)

/-- An edge is not told when both of its ends are nodes. -/
theorem edgeDefects_eq_nil_iff {e : Edge} :
    f.edgeDefects e = [] ↔ e.source ∈ f.ids ∧ e.target ∈ f.ids := by
  unfold edgeDefects
  simp [node?_isNone_iff, -Option.isNone_iff_eq_none]

/-! ### All together -/

/-- **A flow without defects is well formed, and a well-formed flow has no defects.** -/
theorem defects_eq_nil_iff : f.defects = [] ↔ f.WellFormed := by
  have hedges : f.edges.flatMap f.edgeDefects = [] ↔
      ∀ e ∈ f.edges, (∃ n ∈ f.nodes, n.id = e.source) ∧ ∃ n ∈ f.nodes, n.id = e.target := by
    simp only [List.flatMap_eq_nil_iff, edgeDefects_eq_nil_iff, mem_ids_iff]
  have hids : (repeated f.ids).map Defect.duplicateId = [] ↔
      f.nodes.Pairwise fun m n => m.id ≠ n.id := by
    rw [List.map_eq_nil_iff, repeated_eq_nil_iff, ids, List.Nodup, List.pairwise_map]
  change f.startDefects ++ (repeated f.ids).map Defect.duplicateId ++
    f.edges.flatMap f.edgeDefects = [] ↔ _
  rw [List.append_eq_nil_iff, List.append_eq_nil_iff, startDefects_eq_nil_iff, hids, hedges]
  exact ⟨fun ⟨⟨hs, hi⟩, he⟩ => ⟨hs, hi, he⟩, fun h => ⟨⟨h.start, h.distinct⟩, h.edges⟩⟩

/-- **Validation is sound and complete.**  The ids that are known are those of the nodes, nothing is
found wrong exactly when the flow is well formed, and what is found wrong is told of the start
nodes, of every repeated id and of every loose end, once each. -/
theorem validation_iff_wellFormed (f : Flow) :
    (∀ id, (f.tables.node? id).isSome = true ↔ id ∈ f.ids) ∧
    (f.defects.map Defect.message = [] ↔ f.WellFormed) ∧
    ∃ starts ids, f.StartsTold starts ∧ f.Repeats ids ∧ ids.Nodup ∧
      f.defects = starts ++ ids.map .duplicateId ++ f.looseEnds.map fun p => p.1.defect p.2 := by
  refine ⟨fun _ => tables_node?_isSome_iff, List.map_eq_nil_iff.trans defects_eq_nil_iff,
    f.startDefects, repeated f.ids, f.startsTold, f.repeats, f.repeats.nodup, ?_⟩
  rw [← flatMap_edgeDefects]
  rfl

/-- A node that occurs twice, and two edges that lead from nowhere and to nowhere. -/
example : ({ id := "f"
             nodes := [{ id := "start", block := .start {} }, { id := "m", block := .message {} },
               { id := "m", block := .message {} }]
             edges := [{ id := "e1", source := "start", target := "ghost" },
               { id := "e2", source := "phantom", target := "m" }] } : Flow).defects =
    [.duplicateId "m", .unknownTarget "e1" "ghost", .unknownSource "e2" "phantom"] := rfl

end Parley.Flow
