/-!
# Named entries

A map kept as the list of its entries in order of arrival. Writing an existing name keeps its place,
a new name goes last. Main statements: `get?_put` reads a write back, and `get?_update` says that an
update prefers the newer entries.
-/

namespace Parley

/-- Entries by name, in order of arrival. -/
abbrev Entries (α : Type) := List (String × α)

namespace Entries

variable {α : Type}

/-- The value under a name. -/
def get? : Entries α → String → Option α
  | [], _ => none
  | (k, v) :: rest, name => if k = name then some v else get? rest name

/-- The name has an entry. -/
def has (es : Entries α) (name : String) : Bool := (es.get? name).isSome

/-- Write one entry. -/
def put : Entries α → String → α → Entries α
  | [], name, v => [(name, v)]
  | (k, w) :: rest, name, v =>
    if k = name then (k, v) :: rest else (k, w) :: put rest name v

/-- Write all entries of `newer`, in their order. -/
def update (es newer : Entries α) : Entries α :=
  newer.foldl (fun acc e => acc.put e.1 e.2) es

/-- Drop the entry of a name. -/
def remove (es : Entries α) (name : String) : Entries α := es.filter (·.1 != name)

/-- The names in order. -/
def names (es : Entries α) : List String := es.map (·.1)

/-- Entries whose names may repeat, of which the last counts. -/
def ofPairs (pairs : List (String × α)) : Entries α := update [] pairs

/-- What is put under a name is found there, and everything else as before. -/
theorem get?_put (es : Entries α) (name other : String) (v : α) :
    (es.put name v).get? other = if name = other then some v else es.get? other := by
  induction es with
  | nil => simp [put, get?]
  | cons e rest ih =>
    obtain ⟨k, w⟩ := e
    by_cases hk : k = name
    · subst hk
      by_cases ho : k = other <;> simp [put, get?, ho]
    · rw [put, if_neg hk, get?, ih, get?]
      by_cases ho : k = other
      · have hn : name ≠ other := fun h => hk (ho.trans h.symm)
        rw [if_pos ho, if_neg hn, if_pos ho]
      · rw [if_neg ho, if_neg ho]

/-- The last newer value of a name counts, and the old one where there is none. -/
theorem get?_update (es newer : Entries α) (name : String) :
    (es.update newer).get? name =
      ((newer.reverse.find? (·.1 == name)).map (·.2)).or (es.get? name) := by
  induction newer generalizing es with
  | nil => simp [update]
  | cons e rest ih =>
    have step : es.update (e :: rest) = (es.put e.1 e.2).update rest := rfl
    rw [step, ih, get?_put, List.reverse_cons, List.find?_append]
    cases rest.reverse.find? (·.1 == name) with
    | some p => simp
    | none => by_cases he : e.1 = name <;> simp [he]

/-- A name that was there keeps its place, and a new one goes last. -/
theorem names_put (es : Entries α) (name : String) (v : α) :
    (es.put name v).names = if name ∈ es.names then es.names else es.names ++ [name] := by
  induction es with
  | nil => simp [put, names]
  | cons e rest ih =>
    obtain ⟨k, w⟩ := e
    by_cases hk : k = name
    · simp [put, names, hk]
    · have hn : ¬ name = k := fun h => hk h.symm
      simp only [put, hk, if_false, names, List.map_cons, List.mem_cons, hn, false_or]
      rw [show (put rest name v).map (·.1) = names (put rest name v) from rfl, ih, names]
      by_cases hm : name ∈ rest.map (·.1)
      · rw [if_pos hm, if_pos hm]
      · rw [if_neg hm, if_neg hm, List.cons_append]

end Entries
end Parley
