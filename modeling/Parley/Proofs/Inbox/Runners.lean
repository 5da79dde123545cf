import Parley.Inbox.Basic
import Parley.Proofs.Registry.Books

/-!
# The index made last

Between the publishing of a flow and a turn on it stand two books: the registry keeps an index for
each version, and the inbox keeps a runner for it.  Both follow what was published: the registry has
the index made last (`Registry.Becomes.index?_eq`), and the runner that is picked is one of that
very index (`Runners.Fit.index_pick`), whichever runners are kept.

What is kept may be stale, but never newer than what the registry has (`Runners.Fit`).  Publishing,
taking back and picking keep it so.
-/

namespace Parley

namespace Registry

/-- The index made last for an id and a version, when the flows were published, the newest first:
that of the newest among those with the id and version, its edition the number of the others. -/
def newest? (published : List Flow) (id : String) (version : Int) : Option Index :=
  let editions := published.filter fun f => (f.id, f.version) = (id, version)
  editions.head?.map fun f => { flow := f, edition := editions.length - 1 }

theorem newest?_cons (f : Flow) (fs : List Flow) (id : String) (version : Int) :
    newest? (f :: fs) id version = if (f.id, f.version) = (id, version) then
        some { flow := f, edition := ((newest? fs id version).map (·.edition + 1)).getD 0 }
      else newest? fs id version := by
  unfold newest?
  by_cases h : (f.id, f.version) = (id, version)
  · rw [List.filter_cons_of_pos (by simpa using h), if_pos h]
    cases fs.filter fun f => (f.id, f.version) = (id, version) <;> simp
  · rw [List.filter_cons_of_neg (by simpa using h), if_neg h]

/-- **The registry has the index made last**, and keeps none of a flow that was not published. -/
theorem Becomes.index?_eq {r r' : Registry} {fs earlier : List Flow} (h : Becomes r fs r')
    (hr : ∀ id version, r.index? id version = newest? earlier id version) (id : String)
    (version : Int) :
    r'.index? id version = newest? (fs ++ earlier) id version := by
  induction h with
  | refl => exact hr id version
  | publish _ _ ih => rw [index?_publish, List.cons_append, newest?_cons, ih]
  | remove _ _ ih => exact ih

end Registry

namespace Inbox.Runners

open Registry (Index Becomes)

variable {rs : Runners} {reg reg' : Registry}

/-- Every runner is of the index that the registry has for its version, or of an edition before it.
-/
def Fit (rs : Runners) (reg : Registry) : Prop :=
  ∀ e ∈ rs, ∃ index, reg.index? e.1.1 e.1.2 = some index ∧
    (e.2.index = index ∨ e.2.index.edition < index.edition)

theorem fit_nil (reg : Registry) : Fit [] reg := fun e he => by cases he

/-- A version that is registered again leaves its runner behind. -/
theorem Fit.publish (h : rs.Fit reg) (f : Flow) : rs.Fit (reg.publish f) := by
  intro e he
  obtain ⟨index, hindex, hold⟩ := h e he
  rw [Registry.index?_publish]
  split
  · refine ⟨_, rfl, .inr ?_⟩
    have hle : e.2.index.edition ≤ index.edition :=
      hold.elim (fun he => Nat.le_of_eq (congrArg Index.edition he)) Nat.le_of_lt
    simpa [hindex] using Nat.lt_succ_of_le hle
  · exact ⟨index, hindex, hold⟩

theorem Fit.becomes {fs : List Flow} (h : rs.Fit reg) (hb : Becomes reg fs reg') : rs.Fit reg' := by
  induction hb with
  | refl => exact h
  | publish _ _ ih => exact ih.publish _
  | remove _ _ ih => exact ih

/-- **The runner that is picked is one of the very index that the registry has**, as if none were
kept. -/
theorem Fit.index_pick (h : rs.Fit reg) (id : String) (version : Int) :
    (rs.pick reg id version).1.map (·.index) = reg.index? id version := by
  unfold pick
  split
  · next hnone => exact hnone.symm
  · next index hindex =>
    rw [hindex]
    split
    · next runner hrunner =>
      obtain ⟨hlookup, hedition⟩ := Option.filter_eq_some_iff.mp hrunner
      obtain ⟨before, after, hrs, -⟩ := List.lookup_eq_some_iff.mp hlookup
      obtain ⟨index', hindex', hold⟩ := h ((id, version), runner) (by simp [hrs])
      obtain rfl : index = index' := Option.some.inj (hindex.symm.trans hindex')
      -- a runner of an earlier edition is not used again
      refine congrArg some (hold.resolve_right fun hlt => Nat.ne_of_lt hlt ?_)
      exact beq_iff_eq.mp hedition
    · rfl

theorem Fit.pick (h : rs.Fit reg) (id : String) (version : Int) :
    (rs.pick reg id version).2.Fit reg := by
  unfold Runners.pick
  split
  · exact h
  · next index hindex =>
    split
    · exact h
    · intro e he
      rcases List.mem_cons.mp he with rfl | he
      · exact ⟨index, hindex, .inl rfl⟩
      · exact h e (List.mem_filter.mp he).1

end Inbox.Runners
end Parley
