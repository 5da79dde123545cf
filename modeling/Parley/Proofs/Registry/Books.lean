import Parley.Proofs.Turn.Tour
import Parley.Proofs.Value.Entries
import Parley.Registry.Directory

/-!
# The two books of the registry

The registry keeps the published flows by id and all versions by id and version.  The first book
forgets what is replaced or taken back, the second forgets nothing.  Whatever the registry is asked
for, and whether or not it obliges, the books agree (`books_agree_after_any_calls`).

All that a call does is publishing flows and taking some back (`Becomes`, `becomes_serve`), so what
these two keep is kept by every call: one lemma for a flow that is published, one for an id that is
taken back.
-/

namespace Parley

namespace Registry

/-! ### The calls -/

/-- What the registry is asked for that may change it. -/
inductive Call where
  | publish (f : Flow)
  | register (raw : Value)
  | registerAll (raws : List Value)
  /-- Publish the flows of a directory, given how YAML is read. -/
  | load (files : List (String × Content)) (yaml : TextReader := findYaml)
  | remove (id : String)

/-- What the registry answers. -/
inductive Reply where
  | flow (f : Flow)
  | count (n : Nat)
  | found (b : Bool)

/-- The call is for one flow. -/
def Call.isSingle : Call → Bool
  | .publish _ | .register _ => true
  | .registerAll _ | .load _ _ | .remove _ => false

/-- The registry after a call, and its answer. -/
def serve (r : Registry) : Call → Registry × Except LoadFault Reply
  | .publish f =>
    match r.add f with
    | .ok r' => (r', .ok (.flow f))
    | .error e => (r, .error (.register e))
  | .register raw =>
    match r.register raw with
    | .ok (r', f) => (r', .ok (.flow f))
    | .error e => (r, .error (.register e))
  | .registerAll raws =>
    ((r.registerAll raws).1, ((r.registerAll raws).2.map Reply.count).mapError LoadFault.register)
  | .load files yaml => ((r.load files yaml).1, (r.load files yaml).2.map Reply.count)
  | .remove id => (r.remove id, .ok (.found (r.get? id).isSome))

/-- The registry after several calls. -/
def serveAll (r : Registry) (calls : List Call) :
    Registry := calls.foldl (fun r call => (r.serve call).1) r

/-! ### Publishing a flow -/

/-- The registry with a flow published. -/
def publish (r : Registry) (f : Flow) : Registry :=
  { flows := r.flows.put f.id f, versions := putVersion (f.id, f.version) f r.versions }

/-- A flow is published, or refused for its defects. -/
theorem add_eq (r : Registry) (f : Flow) : r.add f = if f.defects = [] then .ok (r.publish f)
    else .error (.invalid (.text f.id) (f.defects.map Flow.Defect.message)) := by
  unfold add
  split
  · next hd => rw [if_pos hd, publish]
  · next hd => rw [if_neg hd]

/-- A flow is added when it has no defects, and then it is published. -/
theorem add_eq_ok_iff {r r' : Registry} {f : Flow} :
    r.add f = .ok r' ↔ f.defects = [] ∧ r' = r.publish f := by
  rw [add_eq]
  split
  · next hd => simp [hd, eq_comm]
  · next hd => exact ⟨nofun, fun h => absurd h.1 hd⟩

/-- What is registered is the flow of the document, and it is published. -/
theorem add_of_register {r r' : Registry} {raw : Value} {f : Flow}
    (h : r.register raw = .ok (r', f)) :
    parse raw = .ok f ∧ r.add f = .ok r' := by
  unfold register at h
  split at h
  · cases hp : parse _ with
    | error e =>
        rw [hp] at h
        cases h
    | ok g =>
        rw [hp] at h
        change (r.add g).bind (fun r' => .ok (r', g)) = _ at h
        cases ha : r.add g with
        | error e =>
            rw [ha] at h
            cases h
        | ok r₁ =>
            rw [ha] at h
            cases h
            exact ⟨rfl, ha⟩
  · cases h

/-- A version is an old one, or the flow's own. -/
theorem mem_putVersion {key : String × Int} {f : Flow} {vs : List ((String × Int) × Index)}
    {e : (String × Int) × Index} (h : e ∈ putVersion key f vs) :
    e ∈ vs ∨ e.1 = key ∧ e.2.flow = f := by
  induction vs with
  | nil =>
      obtain rfl := List.mem_singleton.mp h
      exact .inr ⟨rfl, rfl⟩
  | cons first rest ih =>
      obtain ⟨k, i⟩ := first
      rw [putVersion] at h
      split at h
      · next hk =>
        rcases List.mem_cons.mp h with rfl | h
        · exact .inr ⟨hk, rfl⟩
        · exact .inl (List.mem_cons_of_mem _ h)
      · rcases List.mem_cons.mp h with rfl | h
        · exact .inl List.mem_cons_self
        · exact (ih h).imp_left (List.mem_cons_of_mem _)

/-- The index under a key after one was written: a new edition, where there was one. -/
theorem lookup_putVersion (key other : String × Int) (f : Flow)
    (vs : List ((String × Int) × Index)) :
    (putVersion key f vs).lookup other =
      if key = other then
        some { flow := f, edition := ((vs.lookup key).map (·.edition + 1)).getD 0 }
      else vs.lookup other := by
  induction vs with
  | nil =>
      by_cases h : key = other
      · simp [putVersion, h]
      · simp [putVersion, List.lookup_cons, h, beq_false_of_ne (Ne.symm h)]
  | cons first rest ih =>
      obtain ⟨k, i⟩ := first
      rw [putVersion]
      by_cases hk : k = key
      · subst hk
        by_cases ho : k = other
        · simp [ho]
        · simp [List.lookup_cons, ho, beq_false_of_ne (Ne.symm ho)]
      · have hkey : ((k, i) :: rest).lookup key = rest.lookup key := by
          simp [List.lookup_cons, beq_false_of_ne (Ne.symm hk)]
        rw [if_neg hk, List.lookup_cons, ih, hkey, List.lookup_cons]
        by_cases ho : other = k
        · subst ho
          simp [Ne.symm hk]
        · simp [beq_false_of_ne ho]

/-- The ids and versions that were ever registered, in order. -/
def keys (r : Registry) : List (String × Int) := r.versions.map Prod.fst

/-- A version that was there keeps its place, and a new one goes last. -/
theorem keys_putVersion (key : String × Int) (f : Flow) (vs : List ((String × Int) × Index)) :
    (putVersion key f vs).map Prod.fst =
      if key ∈ vs.map Prod.fst then vs.map Prod.fst else vs.map Prod.fst ++ [key] := by
  induction vs with
  | nil => rfl
  | cons first rest ih =>
      obtain ⟨k, g⟩ := first
      rw [putVersion]
      by_cases hk : k = key
      · simp [hk]
      · rw [if_neg hk, List.map_cons, ih, List.map_cons]
        by_cases hm : key ∈ rest.map Prod.fst
        · rw [if_pos hm, if_pos (List.mem_cons_of_mem _ hm)]
        · rw [if_neg hm, if_neg (List.not_mem_cons_of_ne_of_not_mem (Ne.symm hk) hm),
            List.cons_append]

/-- A published flow is found under its id. -/
theorem get?_publish (r : Registry) (f : Flow) (id : String) :
    (r.publish f).get? id = if f.id = id then some f else r.get? id :=
  Entries.get?_put _ _ _ _

/-- A version that is registered again gets an index of its own. -/
theorem index?_publish (r : Registry) (f : Flow) (id : String) (v : Int) :
    (r.publish f).index? id v = if (f.id, f.version) = (id, v) then
        some { flow := f, edition := ((r.index? id v).map (·.edition + 1)).getD 0 }
      else r.index? id v := by
  have hlookup := lookup_putVersion (f.id, f.version) (id, v) f r.versions
  split at hlookup
  · next hkey =>
    rw [if_pos hkey]
    exact hlookup.trans (by rw [hkey]; rfl)
  · next hkey =>
    rw [if_neg hkey]
    exact hlookup

/-- A published flow is found under its version. -/
theorem version?_publish (r : Registry) (f : Flow) (id : String) (v : Int) :
    (r.publish f).version? id v = if (f.id, f.version) = (id, v) then some f
      else r.version? id v := by
  rw [version?, index?_publish]
  split <;> rfl

/-- The versions that were published before go first. -/
theorem keys_prefix_publish (r : Registry) (f : Flow) : r.keys <+: (r.publish f).keys := by
  change r.versions.map Prod.fst <+: (putVersion (f.id, f.version) f r.versions).map Prod.fst
  rw [keys_putVersion]
  split
  · exact List.prefix_refl _
  · exact List.prefix_append _ _

/-! ### What a call does -/

/-- A registry came to be another one: the flows were published, the newest first, and some taken
back. -/
inductive Becomes (r : Registry) : List Flow → Registry → Prop where
  | refl : Becomes r [] r
  | publish {fs : List Flow} {r' : Registry} {f : Flow} (h : Becomes r fs r')
      (hd : f.defects = []) :
      Becomes r (f :: fs) (r'.publish f)
  | remove {fs : List Flow} {r' : Registry} (h : Becomes r fs r') (id : String) :
      Becomes r fs (r'.remove id)

/-- What one registry becomes may become another. -/
theorem Becomes.trans {r r' r'' : Registry} {fs fs' : List Flow} (h : Becomes r fs r')
    (h' : Becomes r' fs' r'') : Becomes r (fs' ++ fs) r'' := by
  induction h' with
  | refl => exact h
  | publish _ hd ih => exact ih.publish hd
  | remove _ id ih => exact ih.remove id

theorem becomes_of_add {r r' : Registry} {f : Flow} (h : r.add f = .ok r') : Becomes r [f] r' := by
  obtain ⟨hd, rfl⟩ := add_eq_ok_iff.mp h
  exact .publish .refl hd

/-- A list of entries is published one by one. -/
theorem becomes_registerAll (r : Registry) (raws : List Value) :
    ∃ fs, Becomes r fs (r.registerAll raws).1 := by
  induction raws generalizing r with
  | nil => exact ⟨[], .refl⟩
  | cons raw rest ih =>
      rw [registerAll]
      split
      · next r' f hr =>
        obtain ⟨fs, h⟩ := ih r'
        exact ⟨_, (becomes_of_add (add_of_register hr).2).trans h⟩
      · exact ih r
      · exact ⟨[], .refl⟩

/-- What was found in a file is published as a flow. -/
theorem add_of_publishFound {r r' : Registry} {found : Found} (h : r.publishFound found = .ok r') :
    ∃ f, r.add f = .ok r' := by
  cases found with
  | document raw =>
      rw [publishFound] at h
      cases hr : r.register raw with
      | error e =>
          rw [hr] at h
          cases h
      | ok p =>
          rw [hr] at h
          cases h
          exact ⟨p.2, (add_of_register hr).2⟩
  | foreign flow =>
      cases flow with
      | error e => cases h
      | ok f => exact ⟨f, h⟩
  | nothing => cases h

/-- What is passed over leaves the registry as it was. -/
theorem passOver_cases {r r' : Registry} {found : Bool} {published : Except RegisterFault Registry}
    (h : r.passOver published = .ok (r', found)) : r' = r ∨ published = .ok r' := by
  unfold passOver at h
  split at h
  · cases h
    exact .inr rfl
  · cases h
    exact .inl rfl
  · cases h
    exact .inl rfl
  · cases h

/-- A file leaves the registry as it was, or has a flow that is published. -/
theorem loadFile_cases {r r' : Registry} {yaml : TextReader} {format : Format} {content : Content}
    {found : Bool} (h : r.loadFile yaml format content = .ok (r', found)) :
    r' = r ∨ ∃ f, r.add f = .ok r' := by
  unfold loadFile at h
  cases hc : content.find yaml format with
  | error e =>
      rw [hc] at h
      cases h
  | ok found' =>
      rw [hc] at h
      cases hp : r.passOver (r.publishFound found') with
      | error e =>
          rw [Except.bind, hp] at h
          cases h
      | ok p =>
          rw [Except.bind, hp] at h
          cases h
          exact (passOver_cases hp).imp_right add_of_publishFound

/-- A file that was loaded has published one flow, or none. -/
theorem becomes_of_loadFile {r r' : Registry} {yaml : TextReader} {format : Format}
    {content : Content} {found : Bool} (h : r.loadFile yaml format content = .ok (r', found)) :
    ∃ fs, Becomes r fs r' := by
  rcases loadFile_cases h with rfl | ⟨f, ha⟩
  · exact ⟨[], .refl⟩
  · exact ⟨_, becomes_of_add ha⟩

/-- A directory is published file by file. -/
theorem becomes_loadFiles (r : Registry) (yaml : TextReader) (files : List (String × Content)) :
    ∃ fs, Becomes r fs (r.loadFiles yaml files).1 := by
  induction files generalizing r with
  | nil => exact ⟨[], .refl⟩
  | cons file rest ih =>
      obtain ⟨name, content⟩ := file
      rw [loadFiles]
      split
      · exact ih r
      · split
        · exact ⟨[], .refl⟩
        · next hl =>
          obtain ⟨fs, h⟩ := becomes_of_loadFile hl
          obtain ⟨fs', h'⟩ := ih _
          exact ⟨_, h.trans h'⟩

/-- **All that a call does is publishing flows and taking some back.** -/
theorem becomes_serve (r : Registry) (call : Call) : ∃ fs, Becomes r fs (r.serve call).1 := by
  cases call with
  | publish f =>
      rw [serve]
      split
      · next hr => exact ⟨_, becomes_of_add hr⟩
      · exact ⟨[], .refl⟩
  | register raw =>
      rw [serve]
      split
      · next hr => exact ⟨_, becomes_of_add (add_of_register hr).2⟩
      · exact ⟨[], .refl⟩
  | registerAll raws => exact becomes_registerAll r raws
  | load files yaml => exact becomes_loadFiles r yaml _
  | remove id => exact ⟨[], .remove .refl id⟩

/-- Whatever was asked of a registry, flows were published in it and removed. -/
theorem becomes_serveAll (r : Registry) (calls : List Call) :
    ∃ fs, Becomes r fs (r.serveAll calls) := by
  induction calls generalizing r with
  | nil => exact ⟨[], .refl⟩
  | cons call rest ih =>
      obtain ⟨fs, h⟩ := becomes_serve r call
      obtain ⟨fs', h'⟩ := ih (r.serve call).1
      exact ⟨_, h.trans h'⟩

/-! ### The books agree -/

/-- No version is forgotten, and those that were there keep their places. -/
theorem Becomes.keys_prefix {r r' : Registry} {fs : List Flow} (h : Becomes r fs r') :
    r.keys <+: r'.keys := by
  induction h with
  | refl => exact List.prefix_refl _
  | publish _ _ ih => exact ih.trans (keys_prefix_publish _ _)
  | remove _ _ ih => exact ih

/-- A version that is known stays known. -/
theorem Becomes.version?_isSome {r r' : Registry} {fs : List Flow} (h : Becomes r fs r')
    {id : String} {version : Int} (hv : (r.version? id version).isSome) :
    (r'.version? id version).isSome := by
  induction h with
  | refl => exact hv
  | publish _ _ ih =>
      rw [version?_publish]
      split
      · rfl
      · exact ih
  | remove _ _ ih => exact ih

/-- The book of ids and the book of versions agree. -/
structure Sound (r : Registry) : Prop where
  names : r.flows.names.Nodup
  keys : r.keys.Nodup
  current {id : String} {f : Flow} (h : r.get? id = some f) :
    f.id = id ∧ r.version? id f.version = some f
  versions {e : (String × Int) × Index} (h : e ∈ r.versions) :
    e.1 = (e.2.flow.id, e.2.flow.version) ∧ e.2.flow.defects = []

theorem sound_empty : Sound {} where
  names := List.nodup_nil
  keys := List.nodup_nil
  current := nofun
  versions := nofun

/-- A sound registry stays so when a flow without defects is published. -/
theorem Sound.publish {r : Registry} (h : r.Sound) {f : Flow} (hd : f.defects = []) :
    (r.publish f).Sound where
  names := Entries.nodup_names_put h.names _ _
  keys := by
    change ((putVersion (f.id, f.version) f r.versions).map Prod.fst).Nodup
    rw [keys_putVersion]
    split
    · exact h.keys
    · next hk => exact h.keys.append (List.nodup_singleton _) (List.disjoint_singleton.mpr hk)
  current {id g} hg := by
    rw [get?_publish] at hg
    rw [version?_publish]
    split at hg
    · next hid =>
      obtain rfl : f = g := Option.some.inj hg
      exact ⟨hid, if_pos (hid ▸ rfl)⟩
    · next hid =>
      have hkey : (f.id, f.version) ≠ (id, g.version) := fun he => hid (congrArg Prod.fst he)
      rw [if_neg hkey]
      exact h.current hg
  versions he := by
    rcases mem_putVersion he with he | ⟨hkey, hflow⟩
    · exact h.versions he
    · rw [hkey, hflow]
      exact ⟨rfl, hd⟩

/-- A sound registry stays so when a flow is removed. -/
theorem Sound.remove {r : Registry} (h : r.Sound) (id : String) : (r.remove id).Sound where
  names := h.names.sublist ((List.filter_sublist).map _)
  keys := h.keys
  current {other f} hf := by
    change (r.flows.remove id).get? other = some f at hf
    rw [Entries.get?_remove] at hf
    split at hf
    · cases hf
    · exact h.current hf
  versions := h.versions

/-- So it does whatever it becomes. -/
theorem Becomes.sound {r r' : Registry} {fs : List Flow} (h : Becomes r fs r') (hr : r.Sound) :
    r'.Sound := by
  induction h with
  | refl => exact hr
  | publish _ hd ih => exact ih.publish hd
  | remove _ id ih => exact ih.remove id

/-- The current version of an id is the flow published under it. -/
theorem Sound.current?_eq {r : Registry} (h : r.Sound) (id : String) :
    r.current? id = r.get? id := by
  unfold current?
  cases hf : r.get? id with
  | none => rfl
  | some f => exact (h.current hf).2

/-- A version of a flow has the id and the version that it is kept under, and no defects. -/
theorem Sound.of_version? {r : Registry} (h : r.Sound) {id : String} {v : Int} {f : Flow}
    (hf : r.version? id v = some f) : f.id = id ∧ f.version = v ∧ f.defects = [] := by
  obtain ⟨index, hindex, rfl⟩ := Option.map_eq_some_iff.mp hf
  obtain ⟨_, _, hversions, -⟩ := List.lookup_eq_some_iff.mp hindex
  obtain ⟨hkey, hd⟩ := h.versions (e := ((id, v), index)) (by rw [hversions]; simp)
  exact ⟨(congrArg Prod.fst hkey).symm, (congrArg Prod.snd hkey).symm, hd⟩

/-- What is chosen for the text of a message is published. -/
theorem mem_all_of_resolveText {r : Registry} {text : String} {f : Flow}
    (hf : r.resolveText text = some f) : f ∈ r.all := by
  have hfind {p : Flow → Bool} (h : (r.all.filter (·.isActive)).find? p = some f) : f ∈ r.all :=
    (List.mem_filter.mp (List.mem_of_find?_eq_some h)).1
  unfold resolveText at hf
  rcases Option.or_eq_some_iff.mp hf with hf | ⟨-, hf⟩
  · rcases Option.or_eq_some_iff.mp hf with hf | ⟨-, hf⟩
    · split at hf
      · cases hf
      · exact hfind hf
    · exact hfind hf
  · exact hfind hf

/-- What the registry chooses for a message is a version that it has. -/
theorem Sound.version?_of_resolve {r : Registry} (h : r.Sound) {text flowId : String} {f : Flow}
    (hf : r.resolve text flowId = some f) : r.version? f.id f.version = some f := by
  suffices hget : ∃ id, r.get? id = some f by
    obtain ⟨id, hget⟩ := hget
    obtain ⟨rfl, hv⟩ := h.current hget
    exact hv
  unfold resolve at hf
  split at hf
  · obtain ⟨e, he, rfl⟩ := List.mem_map.mp (mem_all_of_resolveText hf)
    exact ⟨e.1, Entries.get?_of_mem h.names he⟩
  · exact ⟨flowId, hf⟩

/-- A call for one flow that is refused leaves the registry as it was. -/
theorem serve_of_refused {r : Registry} {call : Call} {e : LoadFault} (hc : call.isSingle = true)
    (h : (r.serve call).2 = .error e) : (r.serve call).1 = r := by
  cases call with
  | publish f =>
      cases ha : r.add f with
      | ok r' =>
          rw [serve, ha] at h
          cases h
      | error e' => rw [serve, ha]
  | register raw =>
      cases ha : r.register raw with
      | ok p =>
          rw [serve, ha] at h
          cases h
      | error e' => rw [serve, ha]
  | registerAll _ | load _ _ | remove _ => cases hc

/-- **The registry's books agree, whatever it is asked for.**  After any calls, refused ones
included: every id that is listed has a flow with that id, which is the one found under it; the
current version of an id is that very flow; every version is kept under its own id and number and
has no defects; no further calls drop a version; and a call for one flow that is refused changes
nothing. -/
theorem books_agree_after_any_calls (calls : List Call) :
    let r := serveAll {} calls
    (∀ e ∈ r.flows, e.2.id = e.1 ∧ r.get? e.1 = some e.2) ∧
      (∀ id, r.current? id = r.get? id) ∧
      (∀ e ∈ r.versions, e.1 = (e.2.flow.id, e.2.flow.version) ∧ e.2.flow.defects = []) ∧
      (∀ more, r.keys <+: (r.serveAll more).keys) ∧
      ∀ call e, Call.isSingle call = true → (r.serve call).2 = .error e → (r.serve call).1 = r := by
  intro r
  obtain ⟨_, hb⟩ := becomes_serveAll {} calls
  have h : r.Sound := hb.sound sound_empty
  refine ⟨fun e he => ?_, h.current?_eq, fun e he => h.versions he, fun more => ?_,
    fun call e hc he => serve_of_refused hc he⟩
  · have hget : r.get? e.1 = some e.2 := Entries.get?_of_mem h.names he
    exact ⟨(h.current hget).1, hget⟩
  · obtain ⟨_, hm⟩ := becomes_serveAll r more
    exact hm.keys_prefix

/-- The greeting is published and taken back, and then a flow without nodes is refused. -/
theorem books_agree_after_any_calls_greeting :
    ∃ r : Registry, r = serveAll {} [.publish Turn.greeting, .remove "greeting"] ∧
      r.flows.names = [] ∧ r.keys = [("greeting", 1)] ∧
      ((r.serve (.publish { id := "empty" })).2 matches .error (.register (.invalid ..))) ∧
      (∀ id, r.current? id = r.get? id) ∧ (r.serve (.publish { id := "empty" })).1 = r := by
  obtain ⟨-, hcurrent, -, -, hrefused⟩ :=
    books_agree_after_any_calls [.publish Turn.greeting, .remove "greeting"]
  exact ⟨_, rfl, by decide +kernel, by decide +kernel, by decide +kernel, hcurrent,
    hrefused (.publish { id := "empty" }) _ rfl rfl⟩

end Registry
end Parley
