import Mathlib.Data.Set.List
import Parley.Proofs.Store.Filing

/-!
# The sessions that are listed

The stored sessions are listed from the most recent to the least, those of one moment in the order
in which they were first saved (`Precedes`); perhaps only those of one status, and only so many.  A
limit below zero does not leave all of them out: it leaves out as many of the last.  So exactly as
many sessions as the limit allows are listed unless it is below zero and there are more sessions
than it leaves out (`listed_within_limit`).
-/

namespace Parley

open Calendar

/-- The session has the status that is asked for; every status will do when none is. -/
def Session.isOf (status : Option Session.Status) (s : Session) : Bool := status.all (· == s.status)

theorem Session.Status.name_inj {a b : Session.Status} : a.name = b.name ↔ a = b := by
  refine ⟨fun h => ?_, congrArg _⟩
  exact Option.some.inj ((ofName?_name a).symm.trans (h ▸ ofName?_name b))

namespace Store

variable {st : Store} {ss : List Session} {s : Session} {status : Option Session.Status}
  {changes : List Change}

/-! ### What is stored -/

/-- Stored are the documents of these sessions, each under its id, in this order; and it is known at
what point of time they were last active. -/
structure Records (st : Store) (ss : List Session) : Prop where
  rows : st.rows = ss.map fun s => (s.id, s.toValue)
  ids : (ss.map Session.id).Nodup
  dated : ∀ s ∈ ss, s.Dated

/-- A store keeps the sessions of its record. -/
theorem Records.keeps_iff (h : st.Records ss) : st.Keeps s ↔ s ∈ ss := by
  have hnames : st.rows.names = ss.map Session.id := by
    rw [h.rows, Entries.names, List.map_map]
    rfl
  constructor
  · rintro ⟨hs, hrow⟩
    have hmem := Entries.mem_of_get? hrow
    rw [h.rows] at hmem
    obtain ⟨s', hs', he⟩ := List.mem_map.mp hmem
    have hsame := Session.toValue_inj (h.dated s' hs').written hs.written (Prod.mk.inj he).2
    exact hsame ▸ hs'
  · intro hs
    refine ⟨h.dated s hs, ?_⟩
    have hmem : (s.id, s.toValue) ∈ st.rows := h.rows ▸ List.mem_map.mpr ⟨s, hs, rfl⟩
    exact Entries.get?_of_mem (hnames ▸ h.ids) hmem

/-- Changes keep every id once. -/
theorem nodup_names_altered (changes : List Change) : (altered changes).rows.names.Nodup := by
  induction changes using List.reverseRecOn with
  | nil => exact List.nodup_nil
  | append_singleton changes c ih =>
      rw [altered_concat]
      cases c with
      | save s =>
          exact save_cases (p := fun st => st.rows.names.Nodup) ih fun _ =>
            Entries.nodup_names_put ih _ _
      | delete id =>
          change (((altered changes).delete id).1.rows.names).Nodup
          rw [rows_delete, Entries.names_remove]
          exact ih.filter _

/-- **After any changes sessions are stored**, if those that were saved can be dated. -/
theorem exists_records (h : ∀ s, .save s ∈ changes → s.Dated) :
    ∃ ss, (altered changes).Records ss := by
  have hnames := nodup_names_altered changes
  have hrows : (altered changes).rows ∈
      Set.range (List.map fun s : {s : Session // s.Dated} => (s.1.id, s.1.toValue)) := by
    rw [Set.range_list_map]
    rintro e he
    obtain ⟨s, hs, hid, hrow⟩ := (filing_of_dated h).kept e.1 e.2 (Entries.get?_of_mem hnames he)
    exact ⟨⟨s, hs.dated⟩, Prod.ext hid hrow⟩
  obtain ⟨kept, hkept⟩ := hrows
  rw [← hkept, Entries.names, List.map_map] at hnames
  refine ⟨kept.map Subtype.val, ?_, ?_, ?_⟩
  · rw [← hkept, List.map_map]
    rfl
  · rw [List.map_map]
    exact hnames
  · intro s hs
    obtain ⟨s, -, rfl⟩ := List.mem_map.mp hs
    exact s.2

/-! ### The order -/

/-- The session is listed before the other: it was active later, or at the same moment and was saved
first. -/
def Precedes (ss : List Session) (a b : Session) : Prop :=
  b.lastActivityAt.instant < a.lastActivityAt.instant ∨
    b.lastActivityAt.instant = a.lastActivityAt.instant ∧ [a, b].Sublist ss

theorem Precedes.mono {ss' : List Session} {a b : Session} (h : Precedes ss a b)
    (hsub : ss.Sublist ss') :
    Precedes ss' a b :=
  h.imp_right fun h => ⟨h.1, h.2.trans hsub⟩

/-- The first is not less recent than the second. -/
def recentFirst (a b : Session) :
    Bool := decide (b.lastActivityAt.instant ≤ a.lastActivityAt.instant)

/-- The order of recency is transitive. -/
theorem recentFirst_trans (a b c : Session) (hab : recentFirst a b = true)
    (hbc : recentFirst b c = true) :
    recentFirst a c = true :=
  decide_eq_true ((of_decide_eq_true hbc).trans (of_decide_eq_true hab))

/-- The order of recency is total. -/
theorem recentFirst_total (a b : Session) : (recentFirst a b || recentFirst b a) = true := by
  rcases Int.le_total b.lastActivityAt.instant a.lastActivityAt.instant with h | h <;>
    simp [recentFirst, h]

/-- **Sorting keeps those of one moment as they came.** -/
theorem pairwise_precedes (ss : List Session) :
    (ss.mergeSort recentFirst).Pairwise (Precedes ss) := by
  induction ss with
  | nil =>
      rw [List.mergeSort_nil]
      exact .nil
  | cons s rest ih =>
      obtain ⟨before, after, hsort, hrest, hbefore⟩ :=
        List.mergeSort_cons recentFirst_trans recentFirst_total s rest
      have hsorted := List.pairwise_mergeSort recentFirst_trans recentFirst_total (s :: rest)
      rw [hsort] at hsorted ⊢
      rw [hrest] at ih
      have hmem {c : Session} (hc : c ∈ before ++ after) : c ∈ rest :=
        (List.mergeSort_perm rest recentFirst).mem_iff.mp (hrest ▸ hc)
      have ih := ih.imp fun h => h.mono (List.sublist_cons_self s rest)
      obtain ⟨hfirst, hlast, hacross⟩ := List.pairwise_append.mp ih
      refine List.pairwise_append.mpr ⟨hfirst, List.pairwise_cons.mpr ⟨fun c hc => ?_, hlast⟩,
        fun b hb c hc => ?_⟩
      -- what comes after `s` was active before it, or at the same moment and came after it
      · have hle : c.lastActivityAt.instant ≤ s.lastActivityAt.instant :=
          of_decide_eq_true ((List.pairwise_cons.mp (List.pairwise_append.mp hsorted).2.1).1 c hc)
        refine hle.lt_or_eq.imp_right fun heq => ⟨heq, ?_⟩
        exact List.Sublist.cons_cons s
          (List.singleton_sublist.mpr (hmem (List.mem_append_right _ hc)))
      · rcases List.mem_cons.mp hc with rfl | hc
        · exact .inl (Int.not_le.mp
            (of_decide_eq_false (by simpa [recentFirst] using hbefore b hb)))
        · exact hacross b hb c hc

/-! ### What is listed -/

theorem hasStatus_toValue (status : Option Session.Status) (s : Session) :
    hasStatus status s.toValue = .ok (s.isOf status) := by
  cases status with
  | none => rfl
  | some st =>
      have hentry : s.toValue.entry "status" = .ok (.text s.status.name) := rfl
      unfold hasStatus
      dsimp only
      rw [hentry]
      have hsame : (Value.text s.status.name).same (.text st.name) = (st == s.status) := by
        rw [Value.same, Bool.eq_iff_iff, beq_iff_eq, beq_iff_eq, Session.Status.name_inj, eq_comm]
      exact congrArg Except.ok hsame

/-- Every document with its moment. -/
theorem mapM_lastActivity (h : ∀ s ∈ ss, s.Dated) :
    (ss.map Session.toValue).mapM (fun row => do return (← lastActivity row, row)) =
      .ok (ss.map fun s => (s.lastActivityAt, s.toValue)) := by
  induction ss with
  | nil => rfl
  | cons s rest ih =>
      obtain ⟨hs, hrest⟩ := List.forall_mem_cons.mp h
      rw [List.map_cons, List.mapM_cons, lastActivity_toValue hs.written, ih hrest]
      rfl

/-- Documents are ordered as their sessions are. -/
theorem notBefore_eq {a b : Session} (ha : a.Dated) (hb : b.Dated) :
    notBefore (a.lastActivityAt, a.toValue) (b.lastActivityAt, b.toValue) = recentFirst a b := by
  rw [notBefore, Moment.compare?_of_offset ha.aware hb.aware, recentFirst,
    Bool.eq_iff_iff, bne_iff_ne, decide_eq_true_iff, Ne, Option.some_inj,
    Int.compare_eq_lt, Int.not_lt]

/-- Documents are sorted as their sessions are. -/
theorem byActivity_toValue (h : ∀ s ∈ ss, s.Dated) :
    byActivity (ss.map Session.toValue) = .ok ((ss.mergeSort recentFirst).map Session.toValue) := by
  have haware : (ss.map fun s => (s.lastActivityAt, s.toValue)).any
      (·.1.offset.isNone) = false := by
    rw [List.any_eq_false]
    intro e he
    obtain ⟨s, hs, rfl⟩ := List.mem_map.mp he
    simp [Option.isSome_iff_ne_none.mp (h s hs).aware]
  have hsort := List.map_mergeSort (l := ss) fun a ha b hb => (notBefore_eq (h a ha) (h b hb)).symm
  unfold byActivity
  rw [mapM_lastActivity h]
  dsimp only [bind, Except.bind]
  rw [haware, Bool.false_and, ← hsort]
  simp only [Bool.false_eq_true, if_false, List.map_map]
  rfl

/-- Sessions are restored from their documents. -/
theorem restoreAll_toValue (h : ∀ s ∈ ss, s.Dated) (now : Moment) (newId : Nat → String) (n : Nat) :
    restoreAll now newId n (ss.map Session.toValue) = .ok ss := by
  induction ss generalizing n with
  | nil => rfl
  | cons s rest ih =>
      obtain ⟨hs, hrest⟩ := List.forall_mem_cons.mp h
      rw [List.map_cons, restoreAll, restore_toValue hs.written]
      simp only [bind, Except.bind, ih hrest]
      rfl

/-- How many of so many items there are within a limit. -/
def within (limit : Int) (count : Nat) :
    Nat := if 0 ≤ limit then min limit.toNat count else count - limit.natAbs

/-- A limit takes so many from the front, and a negative one leaves so many at the end. -/
theorem upTo_eq_take {α : Type} (limit : Int) (items : List α) :
    upTo limit items = items.take (within limit items.length) := by
  unfold upTo within
  split
  · rw [List.take_eq_take_min]
  · rfl

/-- **The sessions that are listed**, when it is these that are stored. -/
theorem Records.list_eq (h : st.Records ss) (now : Moment) (newId : Nat → String)
    (status : Option Session.Status) (limit : Int) :
    st.list now newId status limit =
      .ok (upTo limit ((ss.filter (·.isOf status)).mergeSort recentFirst)) := by
  have hvalues : st.rows.map (·.2) = ss.map Session.toValue := by
    rw [h.rows, List.map_map]
    rfl
  have hfilter := filterRows_toValue (hasStatus_toValue status) ss
  have hdated : ∀ s ∈ ss.filter (·.isOf status), s.Dated := fun s hs =>
    h.dated s (List.mem_of_mem_filter hs)
  have hsorted : ∀ s ∈ (ss.filter (·.isOf status)).mergeSort recentFirst, s.Dated := fun s hs =>
    hdated s ((List.mergeSort_perm _ _).mem_iff.mp hs)
  unfold Store.list
  rw [hvalues, hfilter]
  dsimp only [bind, Except.bind]
  rw [byActivity_toValue hdated]
  simp only [Except.mapError, upTo_eq_take, List.length_map, ← List.map_take]
  exact restoreAll_toValue (fun s hs => hsorted s (List.mem_of_mem_take hs)) now newId 0

theorem Records.nodup (h : st.Records ss) : ss.Nodup := h.ids.of_map _

/-- A number of items is what a limit allows, unless the limit is below zero and leaves items over.
-/
theorem within_eq_min_iff {limit : Int} {count : Nat} :
    (within limit count : Int) = min (max limit 0) count ↔ 0 ≤ limit ∨ count ≤ limit.natAbs := by
  unfold within
  split <;> omega

/-- **The sessions that are listed.**  After any changes it is sessions that are stored, if those
that were saved can be dated.  Then for every status and every limit the list is made; each session
in it is stored and has the status, and is there once; they precede each other, and all those with
the status that are left out.  There are as many as lie within the limit: at most so many from zero
on, and all but so many below zero.  That is the number which the limit allows, with none allowed
below zero, exactly when the limit is not below zero or leaves all out. -/
theorem listed_within_limit (now : Moment) (newId : Nat → String) (status : Option Session.Status)
    (limit : Int) :
    (∀ changes : List Change, (∀ s, .save s ∈ changes → s.Dated) → ∃ ss,
      (altered changes).Records ss) ∧
    ∀ (st : Store) (ss : List Session), st.Records ss →
      ∃ told, st.list now newId status limit = .ok told ∧ told.Nodup ∧
        (∀ s ∈ told, st.Keeps s ∧ s.isOf status = true) ∧ told.Pairwise (Precedes ss) ∧
        (∀ s ∈ told, ∀ s', st.Keeps s' → s'.isOf status = true → s' ∉ told → Precedes ss s s') ∧
        told.length = within limit (ss.countP (·.isOf status)) ∧
        ((told.length : Int) = min (max limit 0) (ss.countP (·.isOf status)) ↔
          0 ≤ limit ∨ ss.countP (·.isOf status) ≤ limit.natAbs) := by
  refine ⟨fun changes => exists_records, fun st ss h => ?_⟩
  have hperm := List.mergeSort_perm (ss.filter (·.isOf status)) recentFirst
  have hpairwise := (pairwise_precedes (ss.filter (·.isOf status))).imp fun hp =>
    hp.mono List.filter_sublist
  have hlist := h.list_eq now newId status limit
  rw [upTo_eq_take, hperm.length_eq, ← List.countP_eq_length_filter] at hlist
  generalize (ss.filter (·.isOf status)).mergeSort recentFirst = sorted at hperm hpairwise hlist
  generalize hcount : within limit (ss.countP (·.isOf status)) = count at hlist
  have hmem (s : Session) : s ∈ sorted ↔ st.Keeps s ∧ s.isOf status = true := by
    rw [hperm.mem_iff, List.mem_filter, h.keeps_iff]
  have hsplit := List.take_append_drop count sorted
  have hlength : (sorted.take count).length = count := by
    rw [List.length_take, hperm.length_eq, ← List.countP_eq_length_filter, ← hcount]
    unfold within
    split <;> omega
  refine ⟨_, hlist, ?_, fun s hs => (hmem s).mp (List.mem_of_mem_take hs),
    hpairwise.sublist (List.take_sublist _ _), fun s hs s' hkeeps hstatus hout => ?_, hlength, ?_⟩
  · exact (hperm.nodup_iff.mpr (h.nodup.filter _)).sublist (List.take_sublist _ _)
  · have hs' := (hmem s').mpr ⟨hkeeps, hstatus⟩
    rw [← hsplit] at hs' hpairwise
    exact (List.pairwise_append.mp hpairwise).2.2 s hs s'
      ((List.mem_append.mp hs').resolve_left hout)
  · rw [hlength, ← hcount]
    exact within_eq_min_iff

/-- Ana's session is saved, and Bia's. -/
def twoVisits : List Change := [.save (visit "a" "ana"), .save (visit "b" "bia")]

theorem records_twoVisits : (altered twoVisits).Records [visit "a" "ana", visit "b" "bia"] where
  rows := rfl
  ids := by decide
  dated := List.forall_mem_cons.mpr ⟨dated_visit .., List.forall_mem_singleton.mpr (dated_visit ..)⟩

/-- A limit of one below zero lists one of the two. -/
theorem listed_within_limit_twoVisits :
    (∃ ss, (altered twoVisits).Records ss) ∧
      ∃ told, (altered twoVisits).list (visit "a" "ana").startedAt (fun _ => "") none
        (-1) = .ok told ∧ told.length = 1 := by
  obtain ⟨hrecords, hlisted⟩ := listed_within_limit (visit "a" "ana").startedAt
    (fun _ => "") none (-1)
  constructor
  · refine hrecords twoVisits fun s hs => ?_
    simp only [twoVisits, List.mem_cons, Change.save.injEq, List.not_mem_nil, or_false] at hs
    rcases hs with rfl | rfl <;> exact dated_visit ..
  · obtain ⟨told, hlist, -, -, -, -, hlength, -⟩ := hlisted _ _ records_twoVisits
    exact ⟨told, hlist, hlength⟩

end Store
end Parley
