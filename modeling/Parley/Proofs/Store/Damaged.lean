import Parley.Proofs.Json.Reading
import Parley.Proofs.Store.Filing
import Parley.Proofs.Store.Flushing
import Parley.Proofs.Store.Single
import Parley.Proofs.Store.Snapshots

/-!
# Stores on damaged files

A file may hold any text.  A store opens as an empty one where there is no JSON in it or no object;
the entries of an object it takes for documents of sessions as they are (`ofFile_holding`), and
looks up the contact of each.

What the entries lack shows when something is told of them (`Tellable`).  A store answers all along
if everything can be told of each of its documents (`answers_of_tellable`), which no change spoils
(`forall_rows_after`), and not otherwise (`tellable_of_answers`).
-/

namespace Parley.Store

open Calendar

variable {st : Store} {row : Value} {rows : List Value}

/-! ### Documents of which everything can be told -/

/-- A store answers whatever it is asked for. -/
structure Answers (st : Store) : Prop where
  get (now : Moment) (newId id : String) : ∃ s?, st.get now newId id = .ok s?
  latest (now : Moment) (newId contact flowId : String) : ∃ s?,
    st.latest now newId contact flowId = .ok s?
  list (now : Moment) (newId : Nat → String) (status : Option Session.Status) (limit : Int) :
    ∃ ss, st.list now newId status limit = .ok ss

/-- The document has a contact with an id, which is neither a list nor an object. -/
def HasContact (row : Value) : Prop :=
  ∃ contact id, row.field? "contact" = some contact ∧ contact.field? "id" = some id ∧
    id.asList? = none ∧ id.asObject? = none

/-- The document tells at what point of time its session was last active. -/
def IsDated (row : Value) : Prop :=
  ∃ t m, row.field? "last_activity_at" = some (.text t) ∧ readIso? (zuluAsOffset t) = some m ∧
    m.offset.isSome

/-- The document is one of a session, has a status, and tells when the session was last active. -/
structure Tellable (row : Value) : Prop where
  session (now : Moment) (newId : String) : ∃ s, Session.ofValue now newId row = .ok s
  status : ∃ v, row.field? "status" = some v
  dated : IsDated row

theorem contactOf_isOk_iff : (∃ contact, contactOf row = .ok contact) ↔ HasContact row := by
  unfold contactOf
  constructor
  · rintro ⟨contact, h⟩
    obtain ⟨c, hcontact, h⟩ := Json.bind_eq_ok.mp h
    obtain ⟨v, hid, h⟩ := Json.bind_eq_ok.mp h
    refine ⟨c, v, Value.entry_eq_ok.mp hcontact, Value.entry_eq_ok.mp hid, ?_⟩
    cases v with
    | list | object => cases h
    | _ => exact ⟨rfl, rfl⟩
  · rintro ⟨c, v, hcontact, hid, hlist, hobject⟩
    rw [Value.entry_eq_ok.mpr hcontact]
    dsimp only [bind, Except.bind]
    rw [Value.entry_eq_ok.mpr hid]
    cases v with
    | list => cases hlist
    | object => cases hobject
    | _ => exact ⟨_, rfl⟩

/-- Documents can be filed when each of them names a contact. -/
theorem isIndexable_iff {rows : Entries Value} : IsIndexable rows ↔ ∀ e ∈ rows, HasContact e.2 := by
  simp only [IsIndexable, contactOf_isOk_iff]

/-- The moment of the last activity is told when it is a text that is a moment. -/
theorem lastActivity_eq_ok {m : Moment} : lastActivity row = .ok m ↔
    ∃ t, row.field? "last_activity_at" = some (.text t) ∧ readIso? (zuluAsOffset t) = some m := by
  unfold lastActivity
  rw [Json.bind_eq_ok]
  constructor
  · rintro ⟨v, hv, h⟩
    split at h
    · next t =>
      split at h
      · next m' hm =>
        cases h
        exact ⟨t, Value.entry_eq_ok.mp hv, hm⟩
      · cases h
    · cases h
  · rintro ⟨t, ht, hm⟩
    refine ⟨.text t, Value.entry_eq_ok.mpr ht, ?_⟩
    dsimp only
    rw [hm]
    rfl

/-- A document is dated when its moment is told with an offset. -/
theorem isDated_iff : IsDated row ↔ ∃ m, lastActivity row = .ok m ∧ m.offset.isSome := by
  simp only [lastActivity_eq_ok]
  exact ⟨fun ⟨t, m, ht, hm, haware⟩ => ⟨m, ⟨t, ht, hm⟩, haware⟩,
    fun ⟨m, ⟨t, ht, hm⟩, haware⟩ => ⟨t, m, ht, hm, haware⟩⟩

/-- The document of a dated session can be told. -/
theorem tellable_toValue {s : Session} (h : s.Dated) : Tellable s.toValue where
  session now newId := ⟨s, Session.ofValue_toValue h.written now newId⟩
  status := ⟨.text s.status.name, rfl⟩
  dated := isDated_iff.mpr ⟨s.lastActivityAt, lastActivity_toValue h.written, h.aware⟩

/-- A session is restored from a document that can be told. -/
theorem Tellable.restored (h : Tellable row) (now : Moment) (newId : String) :
    ∃ s, restore now newId row = .ok s :=
  (h.session now newId).imp fun _ => restore_eq_ok_iff.mpr

theorem Tellable.moment (h : Tellable row) : ∃ m, lastActivity row = .ok m ∧ m.offset.isSome :=
  isDated_iff.mp h.dated

/-- The document of a session names a flow. -/
theorem Tellable.flow (h : Tellable row) : ∃ v, row.entry "flow_id" = .ok v := by
  obtain ⟨s, hs⟩ := h.session ⟨⟨2024, 1, 1⟩, 0, none⟩ ""
  unfold Session.ofValue Schema.block at hs
  split at hs
  · next fields =>
    -- the field is the second of eleven
    unfold Session.read at hs
    iterate 9 obtain ⟨_, _, hs, -, -⟩ := Schema.Checked.of_seq hs
    obtain ⟨_, _, -, hflow, -⟩ := Schema.Checked.of_seq hs
    obtain ⟨v, hv⟩ := Schema.of_required hflow
    rw [Schema.Key.get?, Schema.Key.only, Option.or_self] at hv
    exact ⟨v, Value.entry_eq_ok.mpr hv⟩
  · cases hs

/-- Of a document that can be told it can be said whether it is on a flow. -/
theorem isOnFlow_isOk (h : Tellable row) (flowId : String) :
    ∃ passes, isOnFlow flowId row = .ok passes := by
  obtain ⟨v, hv⟩ := h.flow
  unfold isOnFlow
  rw [hv]
  split <;> exact ⟨_, rfl⟩

/-- Of a document that can be told it can be said whether it has a status. -/
theorem hasStatus_isOk (h : Tellable row) (status : Option Session.Status) :
    ∃ passes, hasStatus status row = .ok passes := by
  obtain ⟨v, hv⟩ := h.status
  unfold hasStatus
  rw [Value.entry_eq_ok.mpr hv]
  cases status <;> exact ⟨_, rfl⟩

/-! ### What is looked through -/

/-- Documents are sifted when each can be tested. -/
theorem filterRows_isOk_iff {test : Value → Except Fault Bool} :
    (∃ kept, filterRows test rows = .ok kept) ↔ ∀ row ∈ rows, ∃ passes, test row = .ok passes := by
  induction rows with
  | nil => exact ⟨fun _ => nofun, fun _ => ⟨[], rfl⟩⟩
  | cons row rest ih =>
      rw [List.forall_mem_cons, ← ih, filterRows]
      constructor
      · rintro ⟨kept, h⟩
        obtain ⟨passes, htest, h⟩ := Json.bind_eq_ok.mp h
        obtain ⟨more, hmore, -⟩ := Json.bind_eq_ok.mp h
        exact ⟨⟨passes, htest⟩, more, hmore⟩
      · rintro ⟨⟨passes, htest⟩, more, hmore⟩
        rw [htest, hmore]
        exact ⟨_, rfl⟩

/-- The moments are those of the documents. -/
theorem mapM_keyed {keyed : List (Moment × Value)}
    (h : rows.mapM (fun row => do return (← lastActivity row, row)) = .ok keyed) :
    keyed.map (·.2) = rows ∧ ∀ e ∈ keyed, lastActivity e.2 = .ok e.1 := by
  induction rows generalizing keyed with
  | nil =>
      cases h
      exact ⟨rfl, nofun⟩
  | cons row rest ih =>
      rw [List.mapM_cons] at h
      obtain ⟨e, he, h⟩ := Json.bind_eq_ok.mp h
      obtain ⟨more, hmore, h⟩ := Json.bind_eq_ok.mp h
      obtain ⟨m, hm, hkey⟩ := Json.bind_eq_ok.mp he
      cases h
      cases hkey
      obtain ⟨hrows, hkeyed⟩ := ih hmore
      exact ⟨by rw [List.map_cons, hrows], List.forall_mem_cons.mpr ⟨hm, hkeyed⟩⟩

/-- Documents are sorted by their moments when each has one. -/
theorem exists_keyed (h : ∀ row ∈ rows, ∃ m, lastActivity row = .ok m) :
    ∃ keyed, rows.mapM (fun row => do return (← lastActivity row, row)) = .ok keyed := by
  induction rows with
  | nil => exact ⟨[], rfl⟩
  | cons row rest ih =>
      obtain ⟨⟨m, hm⟩, hrest⟩ := List.forall_mem_cons.mp h
      obtain ⟨keyed, hkeyed⟩ := ih hrest
      rw [List.mapM_cons, hm, hkeyed]
      exact ⟨_, rfl⟩

/-- Documents of which all can be told are put in the order of their activity. -/
theorem byActivity_of_tellable (h : ∀ row ∈ rows, Tellable row) :
    ∃ sorted, byActivity rows = .ok sorted ∧ ∀ row ∈ sorted, row ∈ rows := by
  obtain ⟨keyed, hkeyed⟩ := exists_keyed fun row hrow => (h row hrow).moment.imp fun _ => And.left
  obtain ⟨hrows, hmoment⟩ := mapM_keyed hkeyed
  have haware : keyed.any (·.1.offset.isNone) = false := by
    rw [List.any_eq_false]
    intro e he
    obtain ⟨m, hm, hm'⟩ := (h e.2 (hrows ▸ List.mem_map_of_mem he)).moment
    rw [hmoment e he] at hm
    obtain rfl := Except.ok.inj hm
    simp [Option.isSome_iff_ne_none.mp hm']
  refine ⟨(keyed.mergeSort notBefore).map (·.2), ?_, fun row hrow => ?_⟩
  · unfold byActivity
    rw [hkeyed]
    dsimp only [bind, Except.bind]
    rw [haware]
    rfl
  · obtain ⟨e, he, rfl⟩ := List.mem_map.mp hrow
    exact hrows ▸ List.mem_map_of_mem ((List.mergeSort_perm keyed notBefore).mem_iff.mp he)

/-- Among documents that are put in the order of their activity, all are dated if one is. -/
theorem isDated_of_byActivity {sorted : List Value} (h : byActivity rows = .ok sorted)
    {other : Value} (hother : other ∈ rows) (hdated : IsDated other) :
    ∀ row ∈ rows, IsDated row := by
  unfold byActivity at h
  obtain ⟨keyed, hkeyed, hsort⟩ := Json.bind_eq_ok.mp h
  obtain ⟨rfl, hmoment⟩ := mapM_keyed hkeyed
  have hmixed : ¬ (keyed.any (·.1.offset.isNone) && keyed.any (·.1.offset.isSome)) = true :=
      fun hmixed => by
    dsimp only at hsort
    rw [if_pos hmixed] at hsort
    cases hsort
  obtain ⟨e', he', rfl⟩ := List.mem_map.mp hother
  obtain ⟨m, hm, haware⟩ := isDated_iff.mp hdated
  rw [hmoment e' he'] at hm
  obtain rfl := Except.ok.inj hm
  intro row hrow
  obtain ⟨e, he, rfl⟩ := List.mem_map.mp hrow
  refine isDated_iff.mpr ⟨e.1, hmoment e he, ?_⟩
  by_contra hnaive
  refine hmixed (Bool.and_eq_true_iff.mpr ⟨List.any_eq_true.mpr ⟨e, he, ?_⟩,
    List.any_eq_true.mpr ⟨e', he', haware⟩⟩)
  simpa using hnaive

/-- Documents that can be told are restored. -/
theorem restoreAll_of_tellable (h : ∀ row ∈ rows, Tellable row) (now : Moment)
    (newId : Nat → String) (n : Nat) :
    ∃ ss, restoreAll now newId n rows = .ok ss := by
  induction rows generalizing n with
  | nil => exact ⟨[], rfl⟩
  | cons row rest ih =>
      obtain ⟨hrow, hrest⟩ := List.forall_mem_cons.mp h
      obtain ⟨s, hs⟩ := hrow.restored now (newId n)
      obtain ⟨ss, hss⟩ := ih hrest (if lacksId row then n + 1 else n)
      rw [restoreAll, hs]
      simp only [bind, Except.bind, hss]
      exact ⟨_, rfl⟩

/-- Of documents that can be told there is a latest one. -/
theorem latestOf_of_tellable (best : Moment × Value) (hbest : best.1.offset.isSome)
    (h : ∀ row ∈ rows, Tellable row) : ∃ row, latestOf best rows = .ok row := by
  induction rows generalizing best with
  | nil => exact ⟨best.2, rfl⟩
  | cons row rest ih =>
      obtain ⟨hrow, hrest⟩ := List.forall_mem_cons.mp h
      obtain ⟨m, hm, haware⟩ := hrow.moment
      rw [latestOf, hm]
      simp only [bind, Except.bind, Moment.compare?_of_offset haware hbest]
      cases compare m.instant best.1.instant with
      | gt => exact ih (m, row) haware hrest
      | lt | eq => exact ih best hbest hrest

/-! ### Stores that answer -/

/-- **A store answers** when all can be told of its documents. -/
theorem answers_of_tellable (h : ∀ e ∈ st.rows, Tellable e.2) : st.Answers where
  get now newId id := by
    unfold Store.get
    split
    · exact ⟨_, rfl⟩
    · next row hrow =>
      obtain ⟨s, hs⟩ := (h _ (Entries.mem_of_get? hrow)).restored now newId
      rw [hs]
      split <;> exact ⟨_, rfl⟩
  latest now newId contact flowId := by
    have hrows : ∀ row ∈ (st.idsOf contact).filterMap st.rows.get?, Tellable row :=
        fun row hrow => by
      obtain ⟨id, -, hid⟩ := List.mem_filterMap.mp hrow
      exact h _ (Entries.mem_of_get? hid)
    obtain ⟨kept, hkept⟩ := filterRows_isOk_iff.mpr fun row hrow =>
      isOnFlow_isOk (hrows row hrow) flowId
    have hmem : ∀ row ∈ kept, Tellable row := fun row hrow =>
      hrows row (mem_of_filterRows hkept hrow)
    unfold Store.latest latestRow
    rw [hkept]
    cases kept with
    | nil => exact ⟨none, rfl⟩
    | cons row rest =>
        obtain ⟨hrow, hrest⟩ := List.forall_mem_cons.mp hmem
        -- moments with an offset can be compared, so one of them is the latest
        obtain ⟨m, hm, haware⟩ := hrow.moment
        obtain ⟨best, hbest⟩ := latestOf_of_tellable (m, row) haware hrest
        have htellable : Tellable best := (mem_of_latestOf hbest).elim (fun he => he ▸ hrow)
          (hrest best)
        obtain ⟨s, hs⟩ := htellable.restored now newId
        simp only [bind, Except.bind, pure, Except.pure, hm, hbest, Except.mapError, hs]
        exact ⟨_, rfl⟩
  list now newId status limit := by
    have hrows : ∀ row ∈ st.rows.map (·.2), Tellable row := List.forall_mem_map.mpr h
    obtain ⟨kept, hkept⟩ := filterRows_isOk_iff.mpr fun row hrow =>
      hasStatus_isOk (hrows row hrow) status
    obtain ⟨sorted, hsorted, hmem⟩ := byActivity_of_tellable fun row hrow =>
      hrows row (mem_of_filterRows hkept hrow)
    unfold Store.list
    rw [hkept]
    simp only [bind, Except.bind, hsorted, Except.mapError]
    refine restoreAll_of_tellable
      (fun row hrow => hrows row (mem_of_filterRows hkept (hmem row ?_))) now newId 0
    unfold upTo at hrow
    split at hrow <;> exact List.mem_of_mem_take hrow

theorem isTruthy_of_contactOf {contact : Option String} (h : contactOf row = .ok contact) :
    row.isTruthy = true := by
  cases row with
  | object fields =>
      cases fields with
      | nil => cases h
      | cons e rest => rfl
  | _ => cases h

/-- In a store that answers every document is a session. -/
theorem Answers.session (h : st.Answers) (hnames : st.rows.names.Nodup)
    (hrows : IsIndexable st.rows) {e : String × Value} (he : e ∈ st.rows) (now : Moment)
    (newId : String) :
    ∃ s, Session.ofValue now newId e.2 = .ok s := by
  obtain ⟨s?, hget⟩ := h.get now newId e.1
  obtain ⟨contact, hcontact⟩ := hrows e he
  rw [Store.get, Entries.get?_of_mem hnames he] at hget
  dsimp only at hget
  rw [if_pos (isTruthy_of_contactOf hcontact)] at hget
  obtain ⟨s, hs, -⟩ := Json.map_eq_ok.mp hget
  exact ⟨s, restore_eq_ok_iff.mp hs⟩

/-- What a list is made from. -/
theorem Answers.sorted (h : st.Answers) (status : Option Session.Status) : ∃ kept sorted,
    filterRows (hasStatus status) (st.rows.map (·.2)) = .ok kept ∧
      byActivity kept = .ok sorted := by
  obtain ⟨ss, hlist⟩ := h.list ⟨⟨2024, 1, 1⟩, 0, none⟩ (fun _ => "") status 0
  obtain ⟨sorted, hsorted, -⟩ := Json.bind_eq_ok.mp hlist
  obtain ⟨kept, hkept, hsorted⟩ := Json.bind_eq_ok.mp (of_mapError_ok hsorted)
  exact ⟨kept, sorted, hkept, hsorted⟩

/-- To list those of one status every document is asked for its own. -/
theorem Answers.status (h : st.Answers) : ∀ e ∈ st.rows, ∃ v, e.2.field? "status" = some v := by
  intro e he
  obtain ⟨kept, -, hkept, -⟩ := h.sorted (some .active)
  obtain ⟨passes, hpasses⟩ := filterRows_isOk_iff.mp ⟨kept, hkept⟩ e.2 (List.mem_map_of_mem he)
  obtain ⟨v, hv, -⟩ := Json.bind_eq_ok.mp hpasses
  exact ⟨v, Value.entry_eq_ok.mp hv⟩

theorem filterRows_none (rows : List Value) : filterRows (hasStatus none) rows = .ok rows := by
  induction rows with
  | nil => rfl
  | cons row rest ih =>
      rw [filterRows, ih]
      rfl

/-- To list all of them every document is asked for its moment. -/
theorem Answers.dated (h : st.Answers) {e' : String × Value} (he' : e' ∈ st.rows)
    (hdated : IsDated e'.2) :
    ∀ e ∈ st.rows, IsDated e.2 := by
  intro e he
  obtain ⟨kept, sorted, hkept, hsorted⟩ := h.sorted none
  rw [filterRows_none] at hkept
  obtain rfl := Except.ok.inj hkept
  exact isDated_of_byActivity hsorted (List.mem_map_of_mem he') hdated e.2 (List.mem_map_of_mem he)

/-! ### Opening -/

/-- The documents in a text: the entries of the object that it holds. -/
def documents (text : String) : Entries Value :=
  match Json.read text with
  | .ok (.object rows) => rows
  | _ => []

/-- The directory of a file with a text. -/
def holding (text : String) : Directory := { file := some (Content.ofText text) }

theorem legible_documents (text : String) : (Value.object (documents text)).Legible := by
  unfold documents
  split
  · next hread => exact Json.read_legible hread
  · exact Value.legible_object.mpr ⟨List.nodup_nil, nofun⟩

/-- **A store opens** on the documents in a text, unless a whole number is too long. -/
theorem ofFile_holding (text : String) :
    (∃ digits, Content.ofText text = .tooLong digits ∧
        ofFile (holding text).file = .error (.tooLongToRead digits)) ∨
      (∀ digits, Content.ofText text ≠ .tooLong digits) ∧ ofFile (holding text).file = ofRows
        (documents text) := by
  unfold holding documents Content.ofText
  dsimp only
  cases Json.read text with
  | error e =>
      cases e with
      | malformed => exact .inr ⟨nofun, rfl⟩
      | tooLong digits => exact .inl ⟨digits, rfl, rfl⟩
  | ok v => cases v <;> exact .inr ⟨nofun, rfl⟩

/-- A filed store is opened on what its file holds. -/
theorem ofDirectory_eq_ok {interval : Rat} {d : Directory} {f : Filed} :
    Filed.ofDirectory interval d = .ok f ↔
    ∃ st, ofFile d.file = .ok st ∧ f = { store := st, interval := interval } := by
  unfold Filed.ofDirectory
  cases ofFile d.file with
  | error e => exact ⟨nofun, fun ⟨_, h, _⟩ => nomatch h⟩
  | ok st =>
      constructor
      · exact fun h => ⟨st, rfl, (Except.ok.inj h).symm⟩
      · rintro ⟨_, h, rfl⟩
        cases h
        rfl

theorem exists_ofDirectory_iff {interval : Rat} {d : Directory} :
    (∃ f, Filed.ofDirectory interval d = .ok f) ↔ ∃ st, ofFile d.file = .ok st := by
  simp only [ofDirectory_eq_ok]
  exact ⟨fun ⟨_, st, h, _⟩ => ⟨st, h⟩, fun ⟨st, h⟩ => ⟨_, st, h, rfl⟩⟩

/-! ### Changes -/

/-- A number is as long in the dump of a session. -/
theorem hasLongInt_toValue_dumped (s : Session) :
    s.dumped.toValue.hasLongInt = s.toValue.hasLongInt := by
  simp only [Session.toValue, Session.dumped, Value.hasLongInt, Value.hasLongIntFields,
    Value.hasLongIntFields_dumpedFields]

/-- A store and its directory after changes. -/
def Filed.after (changes : List (Rat × Change)) (fd : Filed × Directory) : Filed × Directory :=
  changes.foldl (fun fd c => c.2.apply c.1 fd) fd

section
variable {f : Filed} {d : Directory}

theorem writable_mark (f : Filed) (d : Directory) (clock : Rat) :
    (f.mark d clock).2.1.writable = d.writable := by
  unfold Filed.mark
  split
  · exact Filed.writable_flush f d
  · rfl

theorem store_mark (f : Filed) (d : Directory) (clock : Rat) :
    (f.mark d clock).1.store = f.store := by
  unfold Filed.mark
  split <;> rfl

/-- A change alters the store and leaves the directory writable. -/
theorem apply_spec (c : Change) (clock : Rat) (f : Filed) (d : Directory) :
    (c.apply clock (f, d)).1.store = c.alter f.store ∧
    (c.apply clock (f, d)).2.writable = d.writable := by
  cases c with
  | save s =>
      unfold Change.apply Change.alter
      dsimp only
      cases hf : s.fits with
      | false =>
          rw [Filed.save_of_not_fits f d clock hf, save_of_not_fits f.store hf]
          exact ⟨rfl, rfl⟩
      | true =>
          rw [Filed.save_of_fits f d clock hf]
          exact ⟨store_mark .., writable_mark ..⟩
  | delete id =>
      unfold Change.apply Filed.delete Change.alter
      dsimp only
      generalize f.store.delete id = deleted
      obtain ⟨st, r⟩ := deleted
      dsimp only
      split
      · exact ⟨store_mark .., writable_mark ..⟩
      · exact ⟨rfl, rfl⟩

/-- **What holds of all documents and of those that are saved** holds of all documents after
changes. -/
theorem forall_rows_after {P : Value → Prop} {changes : List (Rat × Change)}
    (hrows : ∀ e ∈ f.store.rows, P e.2) (hsaved : ∀ s ∈ saved changes, P s.dumped.toValue) :
    (∀ e ∈ (Filed.after changes (f, d)).1.store.rows, P e.2) ∧
      (Filed.after changes (f, d)).2.writable = d.writable := by
  induction changes generalizing f d with
  | nil => exact ⟨hrows, rfl⟩
  | cons c rest ih =>
      obtain ⟨clock, c⟩ := c
      obtain ⟨hstore, hwritable⟩ := apply_spec c clock f d
      have hrest : ∀ s ∈ saved rest, P s.dumped.toValue := fun s hs =>
        hsaved s (saved_append [(clock, c)] rest ▸ List.mem_append_right _ hs)
      have hnext : ∀ e ∈ (c.alter f.store).rows, P e.2 := by
        cases c with
        | save s =>
            refine save_cases (p := fun st => ∀ e ∈ st.rows, P e.2) hrows fun hf e he => ?_
            have hmem : s ∈ saved ((clock, .save s) :: rest) := by simp [saved, hf]
            rcases Entries.mem_of_mem_put he with he | rfl
            · exact hrows e he
            · exact hsaved s hmem
        | delete id =>
            intro e he
            change e ∈ (f.store.delete id).1.rows at he
            rw [rows_delete] at he
            exact hrows e (List.mem_of_mem_filter he)
      obtain ⟨hafter, hw⟩ := ih (hstore ▸ hnext) hrest
      exact ⟨hafter, hw.trans hwritable⟩

/-- A store of documents whose contacts can be told deletes what it is told to, where the file can
be written. -/
theorem delete_isOk (hrows : IsIndexable f.store.rows)
    (hshort : ∀ e ∈ f.store.rows, e.2.hasLongInt = false) (hw : d.writable = true) (clock : Rat)
    (id : String) : ∃ deleted, (f.delete d clock id).2.2 = .ok deleted := by
  have hrest : (Value.object (f.store.delete id).1.rows).hasLongInt = false := by
    refine Value.hasLongIntFields_eq_false.mpr fun e he => hshort e ?_
    rw [rows_delete] at he
    exact List.mem_of_mem_filter he
  unfold Filed.delete
  rcases delete_cases hrows id with hdelete | ⟨st', hdelete, -⟩
  · rw [hdelete]
    exact ⟨false, rfl⟩
  · rw [hdelete] at hrest ⊢
    dsimp only
    unfold Filed.mark
    split
    · unfold Filed.flush
      rw [hw, hrest]
      exact ⟨true, rfl⟩
    · exact ⟨true, rfl⟩

end

/-! ### Opened on a damaged file -/

/-- **A store that answers whatever happens can tell all of its documents**, and so can be seen when
it has been opened and after a session was saved. -/
theorem tellable_of_answers {f : Filed} {d : Directory} (hnames : f.store.rows.names.Nodup)
    (hrows : IsIndexable f.store.rows)
    (h : ∀ changes, (∀ s ∈ saved changes, s.Dated) → (Filed.after changes (f, d)).1.store.Answers) :
    ∀ e ∈ f.store.rows, Tellable e.2 := by
  intro e he
  have hopened : f.store.Answers := h [] nofun
  refine ⟨fun now newId => hopened.session hnames hrows he now newId, hopened.status e he, ?_⟩
  -- the session is saved under another id
  let s := visit (e.1 ++ "'") ""
  have hput : f.store.save s = f.store.put s := save_of_fits f.store fits_visit
  have hne : s.id ≠ e.1 := fun heq => by
    simpa [s, visit] using congrArg String.length heq
  have hstore : (Filed.after [(0, .save s)] (f, d)).1.store = f.store.save s :=
    (apply_spec (.save s) 0 f d).1
  have hsaved : (f.store.save s).Answers :=
    hstore ▸ h [(0, .save s)] fun s' hs' => List.mem_singleton.mp hs' ▸ dated_visit ..
  have hself : (s.id, s.toValue) ∈ (f.store.save s).rows := Entries.mem_of_get? (by
    rw [hput, rows_put, Entries.get?_put, if_pos rfl])
  have hother : e ∈ (f.store.save s).rows := Entries.mem_of_get? (by
    rw [hput, rows_put, Entries.get?_put, if_neg hne, Entries.get?_of_mem hnames he])
  exact hsaved.dated hself (tellable_toValue (dated_visit ..)).dated e hother

/-- **A file keeps a store from opening exactly when** a whole number in it is too long or an entry
of its object has no contact with an id.  On any other text the store opens, with the entries as
documents or with none where there is no object, and deletes whatever it is told to.  It answers
whatever it is asked for, after whatever changes, exactly when everything can be told of each entry.
-/
theorem damaged_file_survived_iff (text : String) (interval : Rat) :
    ((∃ f, Filed.ofDirectory interval (holding text) = .ok f) ↔
      (∀ digits, Content.ofText text ≠ .tooLong digits) ∧ ∀ e ∈ documents text, HasContact e.2) ∧
    ∀ f, Filed.ofDirectory interval (holding text) = .ok f →
      f.store.rows = documents text ∧
      (∀ changes, (∀ s ∈ saved changes, s.toValue.hasLongInt = false) → ∀ clock id, ∃ deleted,
        ((Filed.after changes (f, holding text)).1.delete
          (Filed.after changes (f, holding text)).2 clock id).2.2 = .ok deleted) ∧
      ((∀ changes, (∀ s ∈ saved changes, s.Dated) →
        (Filed.after changes (f, holding text)).1.store.Answers) ↔
        ∀ e ∈ documents text, Tellable e.2) := by
  refine ⟨?_, fun f hf => ?_⟩
  · rw [exists_ofDirectory_iff]
    rcases ofFile_holding text with ⟨digits, hlong, hfile⟩ | ⟨hshort, hfile⟩
    · rw [hfile]
      exact ⟨fun ⟨_, h⟩ => (nomatch h), fun h => absurd hlong (h.1 digits)⟩
    · rw [hfile, ofRows_isOk, isIndexable_iff]
      exact (and_iff_right hshort).symm
  · obtain ⟨st, hst, rfl⟩ := ofDirectory_eq_ok.mp hf
    have hindexable := isIndexable_ofFile hst
    obtain ⟨_, _, hfile⟩ | ⟨-, hfile⟩ := ofFile_holding text
    · rw [hfile] at hst
      cases hst
    rw [hfile] at hst
    have hrows := rows_ofRows hst
    have hlegible := Value.legible_object.mp (legible_documents text)
    refine ⟨hrows, fun changes hsaved clock id => ?_, fun h => ?_, fun h changes hdated => ?_⟩
    -- what every change keeps of every row, and all that a deletion needs
    · let P (row : Value) := (∃ contact, contactOf row = .ok contact) ∧ row.hasLongInt = false
      have hopened : ∀ e ∈ st.rows, P e.2 := fun e he =>
        ⟨hindexable e he, (hlegible.2 e (hrows ▸ he)).short⟩
      obtain ⟨hafter, hwritable⟩ := @forall_rows_after { store := st, interval := interval }
        (holding text) P changes
        hopened fun s hs => ⟨⟨some s.contact.id, rfl⟩,
          (hasLongInt_toValue_dumped s).trans (hsaved s hs)⟩
      exact delete_isOk (fun e he => (hafter e he).1)
        (fun e he => (hafter e he).2) hwritable clock id
    · exact hrows ▸ tellable_of_answers (hrows ▸ hlegible.1) hindexable h
    · exact answers_of_tellable (forall_rows_after (hrows ▸ h) fun s hs =>
        tellable_toValue (hdated s hs).dumped).1

/-- The text of an object. -/
def textOf (rows : Entries Value) : String := String.ofList (Json.print .spaced (.object rows))

/-- The text of legible documents is read as the documents. -/
theorem read_textOf {rows : Entries Value} (h : (Value.object rows).Legible) :
    Json.read (textOf rows) = .ok (.object rows) := by
  obtain ⟨text, htext, hback⟩ := h.read_json Json.Style.isPlain_spaced
  rw [Value.json, h.short] at htext
  cases htext
  exact hback

/-- One entry, in which there is nothing. -/
def emptyEntry : Entries Value := [("s", .object [])]

/-- One entry, which names its contact and nothing else. -/
def nameOnly : Entries Value := [("s", .object [("contact", .object [("id", .text "ana")])])]

/-- On an entry in which there is nothing no store opens; on one that only names its contact it
opens, and does not answer. -/
theorem damaged_file_survived_iff_entries :
    (¬ ∃ f, Filed.ofDirectory 0 (holding (textOf emptyEntry)) = .ok f) ∧
    ∃ f, Filed.ofDirectory 0 (holding (textOf nameOnly)) = .ok f ∧ ¬ ∀ changes,
      (∀ s ∈ saved changes, s.Dated) →
        (Filed.after changes (f, holding (textOf nameOnly))).1.store.Answers := by
  have hempty : Json.read (textOf emptyEntry) = .ok (.object emptyEntry) :=
    read_textOf (by simp [emptyEntry, Value.legible_object, Entries.names])
  have hname : Json.read (textOf nameOnly) = .ok (.object nameOnly) :=
    read_textOf (by simp [nameOnly, Value.legible_object, Entries.names, Value.legible_text])
  obtain ⟨hiff, -⟩ := damaged_file_survived_iff (textOf emptyEntry) 0
  obtain ⟨hiff', hopened⟩ := damaged_file_survived_iff (textOf nameOnly) 0
  unfold documents at hiff hiff' hopened
  unfold Content.ofText at hiff'
  rw [hempty] at hiff
  rw [hname] at hiff' hopened
  constructor
  · intro hopens
    obtain ⟨_, _, hcontact, -⟩ := (hiff.mp hopens).2 ("s", .object []) List.mem_cons_self
    cases hcontact
  · have hshort (digits : Nat) : Content.document (.object nameOnly) ≠ .tooLong digits :=
      fun h => by cases h
    obtain ⟨f, hf⟩ := hiff'.mpr ⟨hshort, List.forall_mem_singleton.mpr ⟨_, _, rfl, rfl, rfl, rfl⟩⟩
    refine ⟨f, hf, fun hanswers => ?_⟩
    obtain ⟨v, hv⟩ := ((hopened f hf).2.2.mp hanswers _ List.mem_cons_self).status
    cases hv

end Parley.Store
