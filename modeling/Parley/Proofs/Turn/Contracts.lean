import Parley.Proofs.Step.Contracts
import Parley.Proofs.Turn.History

/-!
# Which contract a session tells of

A session may look contracts up many times, and each find writes over the variables of the contract
found before. But a contract need not have the fields of the one before it, and a field that it
lacks is left as it was (`Stop.LeavesOver`), but for the few that a find always writes.

A client tag that is told by the contract reads one field, and the number when the field is empty.
It tells of the contract found last, unless the field was left over from one found earlier: then it
stores what that contract had (`client_type_of_contract`).
-/

namespace Parley.Turn

open Step (contractName ownFields)

variable {vars : Fields} {past later : List Stop} {st : Stop} {field : String} {v : Value}

/-! ### Stops at contract searches -/

/-- A contract search was left by the handle for a find. -/
def Stop.findsContract (st : Stop) : Bool :=
  match st.effect? with
  | none => false
  | some e => Step.selection.leads st.node && e.handle == "found"

/-- A node that is no contract search has written the variable of a contract's field. -/
def Stop.writesContract (st : Stop) : Bool :=
  match st.effect? with
  | none => false
  | some e => !Step.selection.leads st.node && e.changes.names.any (Entries.begins "contract_")

/-- The stop found the contract. -/
def Stop.Found (st : Stop) (d : Flow.ContractSearch) (contract : Fields) : Prop :=
  ∃ setting e, st.effect? = some e ∧ Step.Finds setting st.node d st.session st.answer e contract

theorem search_of_leads {n : Flow.Node} (h : Step.selection.leads n = true) :
    ∃ d, n.block = .contractSearch d := by
  unfold Step.selection at h
  dsimp only at h
  split at h
  · exact ⟨_, ‹_›⟩
  · cases h

theorem Stop.Follows.exists_found (h : st.Follows vars) (hf : st.findsContract = true) :
    ∃ d contract, st.Found d contract := by
  obtain ⟨setting, hran⟩ := h.ran
  unfold Stop.findsContract at hf
  split at hf
  · cases hf
  · next e he =>
    obtain ⟨hleads, hhandle⟩ := Bool.and_eq_true_iff.mp hf
    obtain ⟨d, hd⟩ := search_of_leads hleads
    rcases Step.finds_or_spares hd (hran _ (Stop.fate_of_effect he)) with ⟨-, contract, hfinds⟩ |
      ⟨hne, -⟩
    · exact ⟨d, contract, setting, e, he, hfinds⟩
    · exact absurd (eq_of_beq hhandle) hne

/-- A stop without a find writes no variable of a contract. -/
theorem Stop.Follows.spares (h : st.Follows vars) (hf : st.findsContract = false)
    (hw : st.writesContract = false) {e : Step.Effect} (he : st.effect? = some e) (field : String) :
    contractName field ∉ e.changes.names := by
  obtain ⟨setting, hran⟩ := h.ran
  unfold Stop.findsContract at hf
  unfold Stop.writesContract at hw
  rw [he] at hf hw
  dsimp only at hf hw
  cases hleads : Step.selection.leads st.node with
  | false =>
      rw [hleads] at hw
      intro hmem
      have hnot := List.any_eq_false.mp (by simpa using hw) _ hmem
      exact hnot (Entries.begins_append "contract_" field)
  | true =>
      rw [hleads, Bool.true_and, beq_eq_false_iff_ne] at hf
      obtain ⟨d, hd⟩ := search_of_leads hleads
      rcases Step.finds_or_spares hd (hran _ (Stop.fate_of_effect he)) with ⟨hfound, -⟩ |
        ⟨-, hspares⟩
      · exact absurd hfound hf
      · exact hspares field

/-! ### The fields of contracts in a history -/

theorem contractName_notMem_outside (field : String) : contractName field ∉ outside :=
  Step.contractName_notMem (by decide) field

theorem History.follows (h : History vars past) (hst : st ∈ past) : ∃ vars, st.Follows vars := by
  obtain ⟨before, after, heq⟩ := List.append_of_mem hst
  exact ⟨_, h before st after heq⟩

/-- **Since the last find** the fields are as it left them. -/
theorem History.get?_since (h : History vars (past ++ later))
    (hf : ∀ st ∈ later, st.findsContract = false) (hw : ∀ st ∈ later, st.writesContract = false)
    (field : String) :
    (written vars (effects (past ++ later))).get? (contractName field) =
      (written vars (effects past)).get? (contractName field) := by
  rw [effects_append, written_append]
  refine get?_written (fun e he => ?_) _
  obtain ⟨st, hst, hfate⟩ := exists_of_mem_effects he
  obtain ⟨vars', hfollows⟩ := h.follows (List.mem_append_right past hst)
  have heffect : st.effect? = some e := by rw [Stop.effect?, hfate]
  exact hfollows.spares (hf st hst) (hw st hst) heffect field

/-- **What the variable of a field holds is a field of a contract found in the session**, but for
the fields that are always written. -/
theorem History.found_of_get? (h : History vars past)
    (hfirst : ∀ field, vars.get? (contractName field) = none)
    (hw : ∀ st ∈ past, st.writesContract = false)
    (hfield : field ∉ ["id", "address", "status", "locked"])
    (hv : (written vars (effects past)).get? (contractName field) = some v) :
    ∃ st ∈ past, ∃ d contract, st.Found d contract ∧ (field, v) ∈ contract := by
  induction past using List.reverseRecOn with
  | nil =>
      rw [show written vars (effects []) = vars from rfl, hfirst] at hv
      cases hv
  | append_singleton past st ih =>
      have hmem : st ∈ past ++ [st] := List.mem_append_right _ (List.mem_singleton_self st)
      -- what was there before comes from an earlier stop
      have hbefore (hold : (written vars (effects past)).get? (contractName field) = some v) :
          ∃ st' ∈ past ++ [st], ∃ d contract, st'.Found d contract ∧ (field, v) ∈ contract := by
        obtain ⟨st', hst', hfound⟩ :=
          ih h.before (fun st hst => hw st (List.mem_append_left _ hst)) hold
        exact ⟨st', List.mem_append_left _ hst', hfound⟩
      cases hfinds : st.findsContract with
      | false =>
          have hsame := h.get?_since (by simpa using hfinds) (by simpa using hw st hmem) field
          exact hbefore (hsame.symm.trans hv)
      | true =>
          obtain ⟨d, contract, setting, e, he, hfound⟩ := h.last.exists_found hfinds
          rw [effects_append, effects_singleton, he, written_append] at hv
          have hown : (ownFields d contract).get? field = none :=
            Entries.get?_eq_none_iff.mpr hfield
          rcases hfound.of_get? hown hv with hcontract | hold
          · exact ⟨st, hmem, d, contract, ⟨setting, e, he, hfound⟩, hcontract⟩
          · exact hbefore hold

/-! ### The type of a client -/

/-- The contract lacks the field, which is none that a find always writes, and the variable of the
field was not empty when the contract was found. -/
structure Stop.LeavesOver (st : Stop) (contract : Fields) (field : String) (v : Value) : Prop where
  lacks : contract.get? field = none
  other : field ∉ ["id", "address", "status", "locked"]
  held : st.session.vars.get? (contractName field) = some v
  filled : v.isTruthy = true

/-- **The type of a client is told by the contract found last, unless a field was left over.**  A
session has come through any career and a part of one more turn, whatever its turns were told,
whatever the collaborators answered and whenever turns were cut short, and comes to a client tag
that is told by the contract.  No node but contract searches has written variables of a contract,
and there were none at first.  Let `found` be the last stop at which a contract search was left by
the handle for a find.

That search has found a contract.  The tag is what the contract's field tells, or else what the back
office has for its number, or else that the client is new (`Step.TypeOf`), with two exceptions.  If
the contract lacks the field and the variable was not empty when it was found, the tag is the value
of that variable: a field of a contract found earlier.  And if the field is the one for locking, its
variable tells whether the search locks contracts, whatever the contract has. -/
theorem client_type_of_contract {first s : Session} {legs : List Leg} (h : Career first legs s)
    (hfirst : ∀ field, first.vars.get? (contractName field) = none) {setting : Step.Setting}
    {now : Calendar.Moment} {message : Option String} {timeout : Option Binary64}
    {stops : List Stop} {ending : Ending}
    (t : (tour setting now s message timeout).Ends (stops, ending)) {before after : List Stop}
    {st : Stop} (hst : stops = before ++ st :: after) {earlier later : List Stop} {found : Stop}
    (hpast : legs.flatMap Leg.stops ++ before = earlier ++ found :: later)
    (hwrites : ∀ st' ∈ earlier ++ found :: later, st'.writesContract = false)
    (hfound : found.findsContract = true) (hlast : ∀ st' ∈ later, st'.findsContract = false)
    {d : Flow.ClientTag} (hn : st.node.block = .clientTag d) (hd : d.autoDetectFromContract = true)
    {log : List (Program.Exchange Step.Op Step.Op.Reply)} {e : Step.Effect}
    (hr : (Step.run setting st.node st.session st.answer).Comes log (.done e)) :
    ∃ search contract tag, found.Found search contract ∧
      e.changes = [("client_type", Step.storedType d st.session.vars tag),
        ("client_tag_action", .text d.action)] ∧
      (contract.names.Nodup →
        (d.contractField ≠ "locked" → (¬ ∃ v, found.LeavesOver contract d.contractField v) →
          Step.TypeOf setting contract d.contractField log tag) ∧
        (∀ v, found.LeavesOver contract d.contractField v →
          (∃ text, v.plain = .ok text ∧ log = [] ∧ tag = .text text) ∧
          ∃ st' ∈ earlier, ∃ search' contract', st'.Found search' contract' ∧
            (d.contractField, v) ∈ contract') ∧
        (d.contractField = "locked" →
          (search.lockContract = true ∧ log = [] ∧ tag = .text "True") ∨
          (search.lockContract = false ∧
            Step.AskedType setting ((contract.get? "id").getD (.text "")) log tag))) := by
  have hall := h.history_then t
  rw [hst, ← List.append_assoc, hpast] at hall
  have hhistory : History first.vars (earlier ++ found :: later) := hall.before
  have hsplit : earlier ++ found :: later = (earlier ++ [found]) ++ later := List.append_cons _ _ _
  have hfollows : found.Follows (written first.vars (effects earlier)) :=
    hhistory earlier found later rfl
  obtain ⟨search, contract, setting', found', heffect, hfinds⟩ := hfollows.exists_found hfound
  obtain ⟨tag, hchanges, htag⟩ := Step.tag_of_comes hn hd hr
  refine ⟨search, contract, tag, ⟨setting', found', heffect, hfinds⟩, hchanges, fun hnodup => ?_⟩
  -- the tag step reads the fields as the last find left them
  have hvars (field : String) : st.session.vars.get? (contractName field) =
      ((ownFields search contract).get? field).or
        ((contract.get? field).or (found.session.vars.get? (contractName field))) := by
    have hfoundHere := (hall _ st after rfl).found _ (contractName_notMem_outside field)
    rw [hsplit] at hhistory hfoundHere
    rw [hfoundHere, hhistory.get?_since hlast (fun st' hst' => hwrites st' (by simp [hst'])),
      effects_append, effects_singleton, heffect, written_append,
      hfollows.found _ (contractName_notMem_outside field)]
    exact hfinds.get? hnodup _ field
  have hnumber : (st.session.vars.get? (contractName "id")).getD .null =
      (contract.get? "id").getD (.text "") := by
    rw [hvars]
    rfl
  refine ⟨fun hlocked hleft => ?_, fun v hover => ⟨?_, ?_⟩, fun hlocked => ?_⟩
  · refine Step.typeOf_of_agree htag hnumber fun v ht => ?_
    rw [hvars]
    refine Step.field_agrees hlocked (fun hlacks hother v hv => ?_) ht
    by_contra hfilled
    exact hleft ⟨v, hlacks, hother, hv, by simpa using hfilled⟩
  · refine Step.tag_of_filled htag ?_ hover.filled
    rw [hvars, hover.lacks, hover.held, Entries.get?_eq_none_iff.mpr hover.other]
    rfl
  · have hheld := hover.held
    rw [hfollows.found _ (contractName_notMem_outside _)] at hheld
    exact hhistory.before.found_of_get? hfirst
      (fun st' hst' => hwrites st' (List.mem_append_left _ hst')) hover.other
      hheld
  · refine Step.tag_of_locked htag hnumber ?_
    rw [hvars, hlocked]
    rfl

/-- Contracts are looked up by two keys, and then the client is tagged by the kind of the contract.
-/
def tenancyTag : Flow.ClientTag := { autoDetectFromContract := true, contractField := "kind" }

@[inherit_doc tenancyTag] def tenancySetting : Step.Setting :=
  ⟨{ id := "greeting"
     nodes := [{ id := "start", block := .start {} },
       { id := "first", block := .contractSearch { identifyBy := "cpf" } },
       { id := "second", block := .contractSearch { identifyBy := "code" } },
       { id := "tag", block := .clientTag tenancyTag }, { id := "bye", block := .ending {} }]
     edges := [{ source := "start", target := "first" }, { source := "first", target := "second" },
       { source := "second", target := "tag" }, { source := "tag", target := "bye" }] }, {},
       { backend := true }⟩

/-- A session that knows both keys. -/
def tenant : Session := { newcomer with vars := [("cpf", .text "111"), ("code", .text "222")] }

/-- A back office with an owner's contract under the first key, and under the second one of no kind.
-/
def registry : Turn.Collaborators Unit
  | .consult (.findContracts key _) _, s =>
    (.ok (.list [.object (if key = "cpf" then [("id", .text "1"), ("kind", .text "owner")]
      else [("id", .text "2")])]), s)
  | .consult (.clientType _) _, s => (.ok (.text "tenant"), s)
  | .consult _ _, s => (.error .timedOut, s)
  | .sleep _, s => ((), s)

/-- The turn in which both contracts are found and the client is tagged. -/
def tenancyTurn : List Stop × Ending :=
  ((tour tenancySetting newYear tenant (some "hi") none).play (undisturbed registry 0) ()).1

/-- The type of a client that an outcome stores. -/
def typeStored : Step.Outcome → Option String
  | .done e =>
    match e.changes.get? "client_type" with
    | some (.text told) => some told
    | _ => none
  | .failed _ => none

/-- What the step of a stop comes to against the back office. -/
def tenancyStep (st : Stop) : Step.Outcome :=
  ((Step.run tenancySetting st.node st.session st.answer).play registry ()).1

/-- What shows of a stop: its node, what it has to do with contracts, and the type that its step
stores. -/
def tenancyView (st : Stop) : String × Bool × Bool × Option Bool × Option String :=
  (st.node.id, st.writesContract, st.findsContract, st.effect?.map (·.changes.has "contract_kind"),
    typeStored (tenancyStep st))

/-- The second contract is of no kind, and the tag is the kind of the first. -/
theorem client_type_of_contract_tenancy : ∃ before st after earlier found log e,
    (Career tenant [] tenant ∧ (∀ field, tenant.vars.get? (contractName field) = none) ∧
      (tour tenancySetting newYear tenant (some "hi") none).Ends tenancyTurn ∧
        tenancyTurn.1 = before ++ st :: after ∧
      ([] : List Leg).flatMap Leg.stops ++ before = earlier ++ found :: [] ∧
      (∀ st' ∈ earlier ++ found :: [], st'.writesContract = false) ∧ found.findsContract = true ∧
      st.node.block = .clientTag tenancyTag ∧ tenancyTag.autoDetectFromContract = true ∧
      (Step.run tenancySetting st.node st.session st.answer).Comes log (.done e)) ∧
    found.effect?.map (·.changes.has "contract_kind") = some false ∧
      typeStored (.done e) = some "owner" ∧
    ∃ search contract tag, found.Found search contract ∧
      e.changes = [("client_type", Step.storedType tenancyTag st.session.vars tag),
        ("client_tag_action", .text "add")] ∧
      (contract.names.Nodup → ∀ v, found.LeavesOver contract "kind" v →
        ∃ st' ∈ earlier, ∃ search' contract', st'.Found search' contract' ∧
          ("kind", v) ∈ contract') := by
  have hends : (tour tenancySetting newYear tenant (some "hi") none).Ends tenancyTurn :=
    Program.ends_play _ _ _
  have hfirst : ∀ field, tenant.vars.get? (contractName field) = none := fun field =>
    Entries.get?_eq_none_iff.mpr
      (Step.contractName_notMem (show ["cpf", "code"].all _ = true by decide) field)
  have hseen : tenancyTurn.1.map tenancyView =
      [("start", false, false, some false, none), ("first", false, true, some true, none),
        ("second", false, true, some false, none), ("tag", false, false, some false, some "owner"),
        ("bye", false, false, some false, none)] := by
    decide +kernel
  -- the stops of the turn by what is seen of them
  obtain ⟨start, rest, hstops, hstart, hseen⟩ := List.map_eq_cons_iff.mp hseen
  obtain ⟨first, rest, rfl, hfirstSeen, hseen⟩ := List.map_eq_cons_iff.mp hseen
  obtain ⟨second, rest, rfl, hsecond, hseen⟩ := List.map_eq_cons_iff.mp hseen
  obtain ⟨tag, rest, rfl, htag, hseen⟩ := List.map_eq_cons_iff.mp hseen
  obtain ⟨bye, rest, rfl, -, hseen⟩ := List.map_eq_cons_iff.mp hseen
  obtain rfl := List.map_eq_nil_iff.mp hseen
  simp only [tenancyView, Prod.mk.injEq] at hstart hfirstSeen hsecond htag
  have hmem : tag ∈ tenancyTurn.1 := by simp [hstops]
  have hnode := (tours_of_ends hends).mem_nodes hmem
  have hblock : tag.node.block = .clientTag tenancyTag := by
    have hall : ∀ n ∈ tenancySetting.flow.nodes, n.id = "tag" →
        n.block = .clientTag tenancyTag := by
      simp [tenancySetting]
    exact hall _ hnode htag.1
  obtain ⟨e, he⟩ : ∃ e, tenancyStep tag = .done e := by
    have htype := htag.2.2.2.2
    cases h : tenancyStep tag with
    | done e => exact ⟨e, rfl⟩
    | failed error =>
        rw [h] at htype
        cases htype
  have hcomes := Program.comes_play registry
    (Step.run tenancySetting tag.node tag.session tag.answer) ()
  rw [show Prod.fst _ = Step.Outcome.done e from he] at hcomes
  have hall : ∀ st' ∈ [start, first] ++ second :: [], st'.writesContract = false := by
    simp [hstart.2.1, hfirstSeen.2.1, hsecond.2.1]
  have hpast : ([] : List Leg).flatMap Leg.stops ++ [start, first, second] = [start, first] ++
    second :: [] := rfl
  replace hstops : tenancyTurn.1 = [start, first, second] ++ tag :: [bye] := hstops
  have hstored := htag.2.2.2.2
  rw [he] at hstored
  obtain ⟨search, contract, told, hfound, hchanges, htold⟩ :=
    client_type_of_contract .opening hfirst hends hstops hpast
    hall hsecond.2.2.1 (fun _ h => nomatch h) hblock rfl hcomes
  refine ⟨[start, first, second], tag, [bye], [start, first], second, _, e,
    ⟨.opening, hfirst, hends, hstops, hpast, hall, hsecond.2.2.1, hblock, rfl, hcomes⟩,
    hsecond.2.2.2.1, hstored, search, contract, told, hfound, hchanges, fun hnodup v hover => ?_⟩
  exact ((htold hnodup).2.1 v hover).2

end Parley.Turn
