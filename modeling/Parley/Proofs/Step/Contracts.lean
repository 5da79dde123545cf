import Parley.Proofs.Step.Dialogues
import Parley.Proofs.Step.Routing
import Parley.Proofs.Step.Saving

/-!
# What is kept of a contract

A search that finds a contract (`Finds`) writes a variable for each of its fields, and four that it
always writes: the number, the address and the status, empty when the contract has none, and whether
the contract is locked (`ownFields`).  A search without a find writes none of these
(`finds_or_spares`).

So after a find the variable of a field is that of the contract, unless it is the one for locking;
and where the contract lacks the field, it is what was there before (`Finds.get?`).  A client tag
that is told by the contract reads two of these variables: its field, and the number when the field
is empty (`reaches_clientTypeOf`).
-/

namespace Parley.Step

variable {s : Setting} {n : Flow.Node} {session : Session} {answer : Option String} {id : String}
  {vars : Fields} {e : Effect} {contract : Fields} {log : List (Program.Exchange Op Op.Reply)}

/-! ### Finding a contract -/

/-- The variable of a contract's field. -/
def contractName (field : String) : String := "contract_" ++ field

/-- The variables that a find always writes. -/
def always (d : Flow.ContractSearch) (contract : Fields) (count : Nat) : Fields :=
  let get := fun name => (contract.get? name).getD (.text "")
  [("contract_id", get "id"), ("contract_address", get "address"),
    ("contract_status", get "status"), ("contract_locked", .bool d.lockContract),
    ("contracts_found", .int count), ("pending_contracts", .null),
    ("identify_contract_node", .null)]

/-- The search finds the contract: one that waits, by its number, or the first of those that are
looked up. -/
inductive Finds (s : Setting) (n : Flow.Node) (d : Flow.ContractSearch) (session : Session)
    (answer : Option String) (e : Effect) (contract : Fields) : Prop where
  | chosen {waiting : Value} {i count : Nat} (hn : n.block = .contractSearch d)
      (hw : pending? n.id session.vars = some waiting)
      (hc : chosenAmong waiting (givenAnswer answer) = .ok (some i))
        (hi : itemAt waiting i = .ok (.object contract))
      (h : contractFound s n.id d (.object contract) count = .ok e)
  | first {value : String} {contracts : Value} {count : Nat} (hn : n.block = .contractSearch d)
      (hw : pending? n.id session.vars = none)
        (hv : lookupValue session.vars session.contact d = .ok value)
      (ha : Gives (findContracts s d value) contracts)
        (hi : itemAt contracts 0 = .ok (.object contract))
      (h : contractFound s n.id d (.object contract) count = .ok e)

/-- Only objects are found. -/
theorem object_of_contractFound {d : Flow.ContractSearch} {item : Value} {count : Nat}
    (h : contractFound s id d item count = .ok e) : ∃ contract, item = .object contract := by
  obtain ⟨fields, hf, -⟩ := bind_eq_ok.mp h
  cases item with
  | object contract => exact ⟨contract, rfl⟩
  | _ => cases hf

/-- What a find writes: the fields of the contract, and over them what is always written. -/
theorem changes_of_contractFound {d : Flow.ContractSearch} {count : Nat}
    (h : contractFound s id d (.object contract) count = .ok e) : e.handle = "found" ∧
      e.changes = (Entries.ofPairs (contract.map fun e => (contractName e.1, e.2))).update
        (always d contract count) := by
  obtain ⟨fields, hf, h⟩ := bind_eq_ok.mp h
  obtain ⟨course, -, h⟩ := bind_eq_ok.mp h
  obtain rfl := pure_eq_ok.mp h
  cases hf
  exact ⟨rfl, rfl⟩

theorem Finds.changes {d : Flow.ContractSearch} (h : Finds s n d session answer e contract) :
    ∃ count, e.changes =
    (Entries.ofPairs (contract.map fun e => (contractName e.1, e.2))).update
    (always d contract count) := by
  cases h with
  | chosen _ _ _ _ h | first _ _ _ _ _ h => exact ⟨_, (changes_of_contractFound h).2⟩

/-- Variables whose names do not begin as those of a contract's fields. -/
theorem contractName_notMem {names : List String}
    (h : names.all fun name => !Entries.begins "contract_" name) (field : String) :
    contractName field ∉ names := fun hmem => by
  have hnot := List.all_eq_true.mp h _ hmem
  rw [contractName, Entries.begins_append] at hnot
  cases hnot

/-- **A search finds a contract when it is left by that handle**, and else it writes no variable of
a contract. -/
theorem finds_or_spares {d : Flow.ContractSearch} (hn : n.block = .contractSearch d)
    (h : (run s n session answer).Ends (.done e)) :
    (e.handle = "found" ∧ ∃ contract, Finds s n d session answer e contract) ∨
      (e.handle ≠ "found" ∧ ∀ field, contractName field ∉ e.changes.names) := by
  have hgives := run_gives h
  unfold effectOf at hgives
  rw [hn] at hgives
  obtain ⟨message, -, hgives⟩ := gives_bind.mp hgives
  split at hgives
  -- several contracts were found before, and the answer chooses among them
  · next waiting hw =>
    have hchoose := gives_lift.mp hgives
    rw [chooseContract_eq] at hchoose
    obtain ⟨chosen, hc, hchoose⟩ := bind_eq_ok.mp hchoose
    cases chosen with
    | none =>
        obtain ⟨list, -, hlist⟩ := bind_eq_ok.mp hchoose
        obtain rfl := pure_eq_ok.mp hlist
        exact .inr ⟨show "" ≠ "found" by decide, fun field => List.not_mem_nil⟩
    | some i =>
        obtain ⟨item, hi, hchoose⟩ := bind_eq_ok.mp hchoose
        obtain ⟨count, -, hfound⟩ := bind_eq_ok.mp hchoose
        obtain ⟨contract, rfl⟩ := object_of_contractFound hfound
        exact .inl ⟨(changes_of_contractFound hfound).1, contract, .chosen hn hw hc hi hfound⟩
  -- the search is made now, and finds none, one, or several to choose from
  · next hw =>
    obtain ⟨value, hv, hgives⟩ := gives_bind.mp hgives
    obtain ⟨contracts, ha, hgives⟩ := gives_bind.mp hgives
    have hsettle := gives_lift.mp hgives
    unfold settleSearch at hsettle
    split at hsettle
    · obtain ⟨said, -, hsettle⟩ := bind_eq_ok.mp hsettle
      obtain ⟨course, -, hsettle⟩ := bind_eq_ok.mp hsettle
      obtain rfl := pure_eq_ok.mp hsettle
      exact .inr ⟨show "not_found" ≠ "found" by decide,
        contractName_notMem (show ["contracts_found"].all _ = true by decide)⟩
    · obtain ⟨count, -, hsettle⟩ := bind_eq_ok.mp hsettle
      split at hsettle
      · obtain ⟨list, -, hlist⟩ := bind_eq_ok.mp hsettle
        obtain rfl := pure_eq_ok.mp hlist
        exact .inr ⟨show "" ≠ "found" by decide,
          contractName_notMem (show ["pending_contracts", "identify_contract_node"].all _ =
            true by decide)⟩
      · obtain ⟨item, hi, hfound⟩ := bind_eq_ok.mp hsettle
        obtain ⟨contract, rfl⟩ := object_of_contractFound hfound
        exact .inl ⟨(changes_of_contractFound hfound).1, contract,
          .first hn hw (gives_lift.mp hv) ha hi hfound⟩

/-! ### The variables after a find -/

/-- The fields that a find always writes, in the place of the contract's own. -/
def ownFields (d : Flow.ContractSearch) (contract : Fields) : Fields :=
  let get := fun name => (contract.get? name).getD (.text "")
  [("id", get "id"), ("address", get "address"), ("status", get "status"),
    ("locked", .bool d.lockContract)]

theorem get?_always (d : Flow.ContractSearch) (contract : Fields) (count : Nat) (field : String) :
    (always d contract count).get? (contractName field) = (ownFields d contract).get? field := by
  have hsplit : always d contract count = (ownFields d contract).map
    (fun e => ("contract_" ++ e.1, e.2)) ++
      [("contracts_found", .int count), ("pending_contracts", .null),
          ("identify_contract_node", .null)] := by
    simp [always, ownFields]
  have hnone : Entries.get? [("contracts_found", .int count), ("pending_contracts", .null),
      ("identify_contract_node", .null)] (contractName field) = (none : Option Value) :=
    Entries.get?_eq_none_iff.mpr (contractName_notMem
      (show ["contracts_found", "pending_contracts", "identify_contract_node"].all _ = true by
        decide) field)
  rw [hsplit, Entries.get?_append, hnone, Option.or_none]
  exact Entries.get?_map_append "contract_" (ownFields d contract) field

/-- **After a find a field is told by the contract, or as it was before.** -/
theorem Finds.get? {d : Flow.ContractSearch} (h : Finds s n d session answer e contract)
    (hnodup : contract.names.Nodup) (vars : Fields) (field : String) :
    (vars.update e.changes).get? (contractName field) =
      ((ownFields d contract).get? field).or
        ((contract.get? field).or (vars.get? (contractName field))) := by
  obtain ⟨count, hchanges⟩ := h.changes
  have hnamed := Entries.nodup_names_map_append "contract_" hnodup
  have hfields := Entries.get?_map_append "contract_" contract field
  rw [hchanges, Entries.get?_update_of_nodup
    (Entries.nodup_names_update (Entries.nodup_names_ofPairs _) _),
    Entries.get?_update_of_nodup (by simp [always, Entries.names]), get?_always, Option.or_assoc]
  refine congrArg _ (congrArg (Option.or · _) ?_)
  rw [← hfields]
  exact congrArg (Entries.get? · _) (Entries.ofPairs_of_nodup hnamed)

/-- Whatever a find leaves under a field's name was there before, or is a field of the contract, or
is always written. -/
theorem Finds.of_get? {d : Flow.ContractSearch} (h : Finds s n d session answer e contract)
    {vars : Fields} {field : String} {v : Value} (hfield : (ownFields d contract).get? field = none)
    (hv : (vars.update e.changes).get? (contractName field) = some v) :
    (field, v) ∈ contract ∨ vars.get? (contractName field) = some v := by
  obtain ⟨count, hchanges⟩ := h.changes
  rcases Entries.of_get?_update hv with hmem | hold
  · rw [hchanges] at hmem
    rcases Entries.mem_of_mem_update hmem with hmem | hmem
    · obtain ⟨entry, hentry, heq⟩ := List.mem_map.mp (Entries.mem_of_mem_ofPairs hmem)
      obtain ⟨hname, rfl⟩ := Prod.mk.inj heq
      obtain rfl : entry.1 = field := (String.append_right_inj _).mp hname
      exact .inl hentry
    · have hnone : (always d contract count).get? (contractName field) = none :=
        (get?_always d contract count field).trans hfield
      exact absurd (List.mem_map_of_mem hmem) (Entries.get?_eq_none_iff.mp hnone)
  · exact .inr hold

/-! ### The type of a client -/

/-- What the back office's reply tells. -/
def typeTold : Except Fault Value → Value
  | .ok v => if v.isTruthy then v else newClient
  | .error _ => newClient

/-- The type that is asked for by the number of a contract; without a number that can be asked for,
or without a back office, the client is new. -/
inductive AskedType (s : Setting) (number : Value) :
    List (Program.Exchange Op Op.Reply) → Value → Prop where
  | unasked (h : number.isTruthy = false ∨ s.team.backend = false ∨ ∃ f, number.plain = .error f) :
      AskedType s number [] newClient
  | asked {text : String} (reply : Except Fault Value) (ht : number.isTruthy = true)
      (hb : s.team.backend = true)
      (hp : number.plain = .ok text) :
      AskedType s number [⟨.consult (.clientType text) s.policy.callBound, reply⟩] (typeTold reply)

/-- The type as a field of the contract tells it: the field where there is one and it is not empty,
and else what is asked for by the contract's number. -/
inductive TypeOf (s : Setting) (contract : Fields) (field : String) :
    List (Program.Exchange Op Op.Reply) → Value → Prop where
  | recorded {v : Value} {text : String} (hv : contract.get? field = some v)
      (ht : v.isTruthy = true)
      (hp : v.plain = .ok text) : TypeOf s contract field [] (.text text)
  | asked {log : List (Program.Exchange Op Op.Reply)} {tag : Value}
      (hv : ∀ v, contract.get? field = some v → v.isTruthy = false)
      (h : AskedType s ((contract.get? "id").getD (.text "")) log tag) :
        TypeOf s contract field log tag

variable {d : Flow.ClientTag} {tag : Value}

theorem askedType_of_reaches {number : Value} (ht : number.isTruthy = true)
    (hb : s.team.backend = true) (h : Reaches (recordedType s number) log tag) :
    AskedType s number log tag := by
  obtain ⟨log₁, log₂, found, rfl, hfound, h⟩ := reaches_bind.mp h
  obtain ⟨rfl, rfl⟩ := reaches_pure.mp h
  rw [List.append_nil]
  cases hp : number.plain with
  | error f =>
      rw [hp] at hfound
      obtain ⟨z, hz, hcase⟩ := comes_tryCatch_pure hfound
      cases hz
      rcases hcase with hx | ⟨rfl, f', hf⟩
      · obtain ⟨text, htext, -⟩ := reaches_lift_bind.mp hx
        cases htext
      · obtain ⟨rfl, -⟩ := Program.comes_done_iff.mp hf
        exact .unasked (.inr (.inr ⟨f, hp⟩))
  | ok text =>
      rw [hp] at hfound
      obtain ⟨reply, rest, rfl, hrest⟩ := Program.comes_request_iff.mp hfound
      change Except Fault Value at reply
      cases reply with
      | ok v =>
          obtain ⟨rfl, hv⟩ := Program.comes_done_iff.mp hrest
          cases hv
          exact .asked (.ok found) ht hb hp
      | error f =>
          obtain ⟨rfl, hv⟩ := Program.comes_done_iff.mp hrest
          cases hv
          exact .asked (.error f) ht hb hp

/-- **What a client tag reads of a contract.**  The field where its variable is not empty, and else
the number. -/
theorem reaches_clientTypeOf (h : Reaches (clientTypeOf s vars d) log tag) :
    (∃ v text, vars.get? (contractName d.contractField) = some v ∧ v.isTruthy = true ∧
      v.plain = .ok text ∧ log = [] ∧ tag = .text text) ∨
    ((∀ v, vars.get? (contractName d.contractField) = some v → v.isTruthy = false) ∧
      AskedType s ((vars.get? (contractName "id")).getD .null) log tag) := by
  unfold clientTypeOf at h
  dsimp only at h
  -- the variable of the contract comes before the question to the back office
  split at h
  · next ht =>
    obtain ⟨text, hp, h⟩ := reaches_lift_bind.mp h
    obtain ⟨rfl, rfl⟩ := reaches_pure.mp h
    cases hv : vars.get? ("contract_" ++ d.contractField) with
    | none =>
        rw [hv] at ht
        cases ht
    | some v =>
        rw [hv] at ht hp
        exact .inl ⟨v, text, hv, ht, hp, rfl, rfl⟩
  · next ht =>
    refine .inr ⟨fun v hv => ?_, ?_⟩
    · have hget : vars.get? ("contract_" ++ d.contractField) = some v := hv
      rw [hget] at ht
      simpa using ht
    · rw [show contractName "id" = "contract_id" from by decide]
      split at h
      · next hask =>
        obtain ⟨hnumber, hb⟩ := Bool.and_eq_true_iff.mp hask
        exact askedType_of_reaches hnumber hb h
      · next hask =>
        obtain ⟨rfl, rfl⟩ := reaches_pure.mp h
        rw [Bool.and_eq_true, not_and_or, Bool.not_eq_true, Bool.not_eq_true] at hask
        exact .unasked (hask.imp_right .inl)

/-- Where the variable of the field says the same as the contract, up to being empty, the contract
tells the type. -/
theorem typeOf_of_agree (h : Reaches (clientTypeOf s vars d) log tag)
    (hnumber : (vars.get? (contractName "id")).getD .null = (contract.get? "id").getD (.text ""))
    (hfield : ∀ v, v.isTruthy = true → (vars.get? (contractName d.contractField) = some v ↔
      contract.get? d.contractField = some v)) :
    TypeOf s contract d.contractField log tag := by
  rcases reaches_clientTypeOf h with ⟨v, text, hv, ht, hp, rfl, rfl⟩ | ⟨hempty, hasked⟩
  · exact .recorded ((hfield v ht).mp hv) ht hp
  · rw [hnumber] at hasked
    refine .asked (fun v hv => ?_) hasked
    by_contra ht
    rw [Bool.not_eq_false] at ht
    rw [hempty v ((hfield v ht).mpr hv)] at ht
    cases ht

/-- Where the variable of the field is not empty, it is the type. -/
theorem tag_of_filled (h : Reaches (clientTypeOf s vars d) log tag) {v : Value}
    (hv : vars.get? (contractName d.contractField) = some v) (ht : v.isTruthy = true) :
    ∃ text, v.plain = .ok text ∧ log = [] ∧ tag = .text text := by
  rcases reaches_clientTypeOf h with ⟨v', text, hv', -, hp, hlog, htag⟩ | ⟨hempty, -⟩
  · obtain rfl := Option.some.inj (hv.symm.trans hv')
    exact ⟨text, hp, hlog, htag⟩
  · rw [hempty v hv] at ht
    cases ht

/-- Where the variable tells whether contracts are locked, so does the type. -/
theorem tag_of_locked (h : Reaches (clientTypeOf s vars d) log tag)
    (hnumber : (vars.get? (contractName "id")).getD .null = (contract.get? "id").getD (.text ""))
    {locked : Bool} (hv : vars.get? (contractName d.contractField) = some (.bool locked)) :
    (locked = true ∧ log = [] ∧ tag = .text "True") ∨
      (locked = false ∧ AskedType s ((contract.get? "id").getD (.text "")) log tag) := by
  cases locked with
  | true =>
      obtain ⟨text, hp, hlog, htag⟩ := tag_of_filled h hv rfl
      obtain rfl : "True" = text := Except.ok.inj hp
      exact .inl ⟨rfl, hlog, htag⟩
  | false =>
      rcases reaches_clientTypeOf h with ⟨v, text, hv', ht, -⟩ | ⟨-, hasked⟩
      · obtain rfl := Option.some.inj (hv.symm.trans hv')
        cases ht
      · rw [hnumber] at hasked
        exact .inr ⟨rfl, hasked⟩

/-- The variable of a field says the same as the contract, up to being empty, unless it was not
empty before and the contract lacks the field. -/
theorem field_agrees {search : Flow.ContractSearch} {field : String} {held : Option Value}
    (hlocked : field ≠ "locked")
    (hheld : contract.get? field = none → field ∉ ["id", "address", "status", "locked"] → ∀ v,
      held = some v → v.isTruthy = false)
    {v : Value} (ht : v.isTruthy = true) :
    ((ownFields search contract).get? field).or ((contract.get? field).or held) = some v ↔
      contract.get? field = some v := by
  by_cases hown : field ∈ ["id", "address", "status", "locked"]
  · -- these are empty where the contract lacks them
    have hget : (ownFields search contract).get? field = some
        ((contract.get? field).getD (.text "")) := by
      simp only [List.mem_cons, List.not_mem_nil, or_false, hlocked] at hown
      rcases hown with rfl | rfl | rfl <;> rfl
    rw [hget, Option.some_or]
    cases contract.get? field with
    | some w => rfl
    | none =>
        refine ⟨fun h => ?_, nofun⟩
        cases Option.some.inj h
        cases ht
  · rw [Entries.get?_eq_none_iff.mpr hown, Option.none_or]
    cases hc : contract.get? field with
    | some w => rfl
    | none =>
        refine ⟨fun h => ?_, nofun⟩
        rw [hheld hc hown v h] at ht
        cases ht

/-- What a client tag stores of a type: the type itself, unless the node is to remove it. -/
def storedType (d : Flow.ClientTag) (vars : Fields) (tag : Value) : Value :=
  let current := (vars.get? "client_type").getD .null
  if d.action = "remove" then if current.same tag then .text "" else current else tag

/-- A client tag that is told by the contract stores what it is told. -/
theorem tag_of_comes (hn : n.block = .clientTag d) (hd : d.autoDetectFromContract = true)
    (h : (run s n session answer).Comes log (.done e)) :
    ∃ tag, e.changes = [("client_type", storedType d session.vars tag),
      ("client_tag_action", .text d.action)] ∧ Reaches (clientTypeOf s session.vars d) log tag := by
  have hr := run_reaches h
  unfold effectOf at hr
  rw [hn] at hr
  have hreach : Reaches (runClientTag s n.id session.vars d) log e := hr
  unfold runClientTag at hreach
  rw [if_pos (by simp [hd])] at hreach
  obtain ⟨log₁, log₂, tag, rfl, htag, hreach⟩ := reaches_bind.mp hreach
  obtain ⟨course, -, hreach⟩ := reaches_lift_bind.mp hreach
  obtain ⟨rfl, rfl⟩ := reaches_pure.mp hreach
  rw [List.append_nil]
  exact ⟨tag, rfl, htag⟩

end Parley.Step
