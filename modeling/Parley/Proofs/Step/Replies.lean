import Mathlib.Data.List.TakeWhile
import Parley.Proofs.Step.Again
import Parley.Proofs.Step.Routing

/-!
# What a node makes of a reply

A node that has put a question is handed a reply: an input with a kind of answer, a menu, a lead
capture under way, or a contract search with contracts to choose from (`Awaits`).  Under lenient
routing, and as long as all variables can be shown, it puts the question again (`Effect.Repeats`) or
accepts the reply (`Accepts`).

There is one exception.  What counts as digits in a menu and in a choice among contracts is more
than what is read as a number: `²` is a digit, and no whole number.  A reply on which the two
disagree makes the step fail (`Misreads`), and no other reply does (`reply_breaks_iff`).
-/

namespace Parley.Step

open Template (fill Displayable fill_isOk)

/-! ### Replies that count as digits -/

/-- The text counts as digits but is not read as a number: one of its characters is no decimal
digit, or there are more of them than are read. -/
def Unreadable (t : String) : Prop :=
  Text.isDigitText t = true ∧
    ((∃ c ∈ t.toList, Text.isDecimal c = false) ∨ Number.digitLimit < t.length)

theorem readIndex_isOk_iff {t : String} (ht : t.isEmpty = false) :
    (∃ n, Number.readIndex t = .ok n) ↔
      (∀ c ∈ t.toList, Text.isDecimal c = true) ∧ t.length ≤ Number.digitLimit := by
  have hall : (∀ c ∈ t.toList, Text.isDecimal c = true) ↔
      (t.toList.takeWhile Text.isDecimal).length = t.length := by
    rw [← String.length_toList]
    refine ⟨fun h => by rw [List.takeWhile_eq_self_iff.mpr h], fun h => ?_⟩
    exact List.takeWhile_eq_self_iff.mp ((List.takeWhile_prefix _).eq_of_length h)
  have hle : (t.toList.takeWhile Text.isDecimal).length ≤ t.length := by
    rw [← String.length_toList]
    exact (List.takeWhile_prefix _).length_le
  rw [hall]
  unfold Number.readIndex
  dsimp only
  rw [ht, Bool.false_or]
  split
  · exact ⟨nofun, fun h => by omega⟩
  · split
    · next hlt => exact ⟨nofun, fun h => absurd h.1 (Nat.ne_of_lt (of_decide_eq_true hlt))⟩
    · next hle' hlt =>
      have hlt' : ¬ (t.toList.takeWhile Text.isDecimal).length < t.length := by simpa using hlt
      exact ⟨fun _ => ⟨by omega, by omega⟩, fun _ => ⟨_, rfl⟩⟩

/-- **A text of digits is a whole number unless it is unreadable.** -/
theorem wholeOf_isOk_iff {t : String} (ht : Text.isDigitText t = true) :
    (∃ n, wholeOf t = .ok n) ↔ ¬ Unreadable t := by
  have hne : t.isEmpty = false := by
    unfold Text.isDigitText at ht
    simpa using (Bool.and_eq_true_iff.mp ht).1
  have hread : (∃ n, wholeOf t = .ok n) ↔ ∃ n, Number.readIndex t = .ok n := by
    unfold wholeOf
    split <;> simp_all
  rw [hread, readIndex_isOk_iff hne, Unreadable]
  simp [ht]

variable {s : Setting} {id : String} {n : Flow.Node} {vars : Fields} {a : String} {e : Effect}

/-! ### What a reply may come to -/

/-- The node has put a question and is handed the next message as a reply: an input without a
pattern of its own, a menu, a search that has contracts to choose from, a capture under way. -/
inductive Awaits (n : Flow.Node) (vars : Fields) : Prop where
  | input {d : Flow.Question} (hn : n.block = .input d) (hk : d.validationType ≠ "custom" ∨
      d.customValidation = "")
  | menu {d : Flow.Menu} (hn : n.block = .menu d)
  | contracts {d : Flow.ContractSearch} {waiting : List Fields} (hn : n.block = .contractSearch d)
      (hw : pending? n.id vars = some (.list (waiting.map .object)))
  | lead {d : Flow.LeadCapture} {i : Int} {field : String} {captured : Fields}
      (hn : n.block = .leadCapture d)
      (hi : cursor? n.id vars = some i) (hlt : i < d.enabledFields.length)
      (hf : fieldAt d.enabledFields i = .ok field) (hc : capturedSoFar vars = .ok captured)

/-- The node reads the reply as a number, and the reply only looks like one. -/
def Misreads (n : Flow.Node) (a : String) : Prop :=
  ((∃ d, n.block = .menu d) ∨ ∃ d, n.block = .contractSearch d) ∧ Unreadable a

/-- The node puts its question again: it waits, and writes nothing. -/
def Effect.Repeats (e : Effect) : Prop := e.course = .wait ∧ e.changes = []

/-- The node accepts the reply. -/
inductive Accepts (s : Setting) (n : Flow.Node) (vars : Fields) (a : String) (e : Effect) :
    Prop where
  /-- An input writes the reply, which is of its kind. -/
  | written {d : Flow.Question} (hn : n.block = .input d)
      (ht : Answer.test d.validationType a = true)
      (hc : Leads s.flow n.id e) (h : e.changes = [(orElseText d.variableName "input", .text a)])
  /-- A menu writes the choice that the reply makes, and is left by it. -/
  | selected {d : Flow.Menu} {c : Flow.Choice} (hn : n.block = .menu d)
      (hm : matchOption a d.options d.allowText = .ok (some c)) (hc : Leads s.flow n.id e)
        (hh : e.handle = c.id)
      (h : e.changes = [("menu_selection", .text (orElseText c.value c.label))])
  /-- A search finds one of the contracts that wait. -/
  | chosen {d : Flow.ContractSearch} {waiting : List Fields} {contract : Fields}
      (hn : n.block = .contractSearch d)
      (hw : pending? n.id vars = some (.list (waiting.map .object))) (hm : contract ∈ waiting)
      (hf : contractFound s n.id d (.object contract) waiting.length = .ok e)
  /-- A capture goes on to the next field. -/
  | captured {d : Flow.LeadCapture} {i : Int} {field : String} (hn : n.block = .leadCapture d)
      (hi : cursor? n.id vars = some i) (hf : fieldAt d.enabledFields i = .ok field)
      (ht : Answer.fieldTest field a = true) (hc : e.course = .wait)
      (hi' : cursor? n.id (vars.update e.changes) = some (i + 1))
  /-- A capture is left with the reply to its last field. -/
  | settled {d : Flow.LeadCapture} {i : Int} {field : String} (hn : n.block = .leadCapture d)
      (hi : cursor? n.id vars = some i) (hf : fieldAt d.enabledFields i = .ok field)
      (ht : Answer.fieldTest field a = true) (hl : i + 1 = d.enabledFields.length)
        (hc : Leads s.flow n.id e)
      (hh : e.handle ∈ ["success", "duplicate", "error"])

/-- What a step that is handed a reply comes to: it breaks on a reply that it misreads, and
otherwise puts its question again or accepts the reply. -/
inductive Replied (s : Setting) (n : Flow.Node) (vars : Fields) (a : String) :
    Except Fault Effect → Prop where
  | breaks {f : Fault} (hm : Misreads n a) : Replied s n vars a (.error f)
  | repeats {e : Effect} (hm : ¬ Misreads n a) (h : e.Repeats) : Replied s n vars a (.ok e)
  | accepts {e : Effect} (hm : ¬ Misreads n a) (h : Accepts s n vars a e) :
      Replied s n vars a (.ok e)

/-! ### Under lenient routing -/

/-- Lenient routing always knows how to go on. -/
theorem onward_lenient (hs : s.policy.strictRouting = false) (id handle : String) :
    s.onward id handle = .ok (.proceed ((s.flow.successor? id handle).map (·.id))) := by
  have h := onward_eq s id handle false
  rw [if_neg nofun, ← hs, s.routing_self] at h
  exact h

/-! ### Inputs and menus -/

theorem runInput_replied {d : Flow.Question} (hs : s.policy.strictRouting = false)
    (hv : Displayable vars) (hn : n.block = .input d)
    (hk : d.validationType ≠ "custom" ∨ d.customValidation = "") :
    Replied s n vars a (runInput s n.id vars d (some a)) := by
  have hm : ¬ Misreads n a := by
    rintro ⟨⟨_, h⟩ | ⟨_, h⟩, -⟩ <;> simp [hn] at h
  have hvalid : Answer.isValid a d.validationType d.customValidation =
      .ok (Answer.test d.validationType a) := by
    unfold Answer.isValid
    rw [if_neg]
    rcases hk with hk | hk <;> simp [hk]
  unfold runInput
  dsimp only
  rw [hvalid]
  change Replied s n vars a (if Answer.test d.validationType a = true then _ else _)
  split
  · next ht =>
    rw [onward_lenient hs]
    exact .accepts hm (.written hn ht rfl rfl)
  · obtain ⟨said, hsaid⟩ := fill_isOk hv d.errorMessage
    rw [hsaid]
    exact .repeats hm ⟨rfl, rfl⟩

/-- A menu fails to match a reply just when it cannot read it. -/
theorem matchOption_replied (a : String) (options : List Flow.Choice) (allowText : Bool) :
    (∃ choice, matchOption a options allowText = .ok choice) ↔ ¬ Unreadable a := by
  have hmatch : (∃ choice, matchOption a options allowText = .ok choice) ↔
      ∃ c, choiceOf a options.length = .ok c := by
    unfold matchOption
    cases choiceOf a options.length with
    | error f => exact ⟨nofun, nofun⟩
    | ok c =>
        refine ⟨fun _ => ⟨c, rfl⟩, fun _ => ?_⟩
        dsimp only [bind, Except.bind]
        split <;> exact ⟨_, rfl⟩
  rw [hmatch]
  unfold choiceOf
  split
  · next ht =>
    rw [← wholeOf_isOk_iff ht]
    cases wholeOf a with
    | error f => exact ⟨nofun, nofun⟩
    | ok k => exact ⟨fun _ => ⟨k, rfl⟩, fun _ => ⟨_, rfl⟩⟩
  · next ht => exact ⟨fun _ h => ht h.1, fun _ => ⟨none, rfl⟩⟩

theorem runMenu_replied {d : Flow.Menu} (hs : s.policy.strictRouting = false)
    (hv : Displayable vars) (hn : n.block = .menu d) :
    Replied s n vars a (runMenu s n.id vars d (some a)) := by
  obtain ⟨title, htitle⟩ := fill_isOk hv d.menuTitle
  have hread := matchOption_replied a d.options d.allowText
  unfold runMenu
  rw [htitle]
  change Replied s n vars a (matchOption a d.options d.allowText >>= _)
  cases hmatch : matchOption a d.options d.allowText with
  | error f =>
      refine .breaks ⟨.inl ⟨d, hn⟩, ?_⟩
      by_contra hr
      obtain ⟨choice, hchoice⟩ := hread.mpr hr
      rw [hmatch] at hchoice
      cases hchoice
  | ok choice =>
      have hm : ¬ Misreads n a := fun h => hread.mp ⟨choice, hmatch⟩ h.2
      cases choice with
      | none =>
          obtain ⟨said, hsaid⟩ := fill_isOk hv d.invalidMessage
          change Replied s n vars a (fill d.invalidMessage vars >>= _)
          rw [hsaid]
          exact .repeats hm ⟨rfl, rfl⟩
      | some c =>
          change Replied s n vars a (s.onward n.id c.id >>= _)
          rw [onward_lenient hs]
          exact .accepts hm (.selected hn hmatch rfl rfl rfl)

/-! ### Choices among contracts -/

theorem mapM_isOk {α β : Type} {f : α → Except Fault β} {xs : List α}
    (h : ∀ x ∈ xs, ∃ y, f x = .ok y) :
    ∃ ys, xs.mapM f = .ok ys := by
  induction xs with
  | nil => exact ⟨[], rfl⟩
  | cons x xs ih =>
      obtain ⟨⟨y, hy⟩, hrest⟩ := List.forall_mem_cons.mp h
      obtain ⟨ys, hys⟩ := ih hrest
      exact ⟨y :: ys, by rw [List.mapM_cons, hy, hys]; rfl⟩

/-- A field that can be shown has a text. -/
theorem fieldText_isOk {contract : Fields} (h : (Value.object contract).hasLongInt = false)
    (name : String) :
    ∃ text, fieldText contract name = .ok text := by
  unfold fieldText
  cases hget : contract.get? name with
  | none => exact ⟨"", rfl⟩
  | some v =>
      have hshort : v.hasLongInt = false := Value.hasLongIntFields_eq_false.mp h _
        (Entries.mem_of_get? hget)
      rw [Option.getD_some]
      unfold Value.plain
      split
      · exact ⟨_, rfl⟩
      · rw [hshort]
        exact ⟨_, rfl⟩

/-- Contracts that can be shown can be listed. -/
theorem contractList_isOk_of_shown {waiting : List Fields}
    (h : (Value.list (waiting.map .object)).hasLongInt = false) (message : String) :
    ∃ list, contractList message (.list (waiting.map .object)) = .ok list := by
  have hline (v : Value) (hv : v ∈ waiting.map Value.object) :
      ∃ line, contractLine v = .ok line := by
    have hshort := Value.hasLongIntItems_eq_false.mp h v hv
    obtain ⟨contract, -, rfl⟩ := List.mem_map.mp hv
    obtain ⟨address, haddress⟩ := fieldText_isOk hshort "address"
    obtain ⟨status, hstatus⟩ := fieldText_isOk hshort "status"
    refine ⟨address ++ " - " ++ status, ?_⟩
    change (fieldText contract "address" >>= _) = _
    rw [haddress]
    change (fieldText contract "status" >>= _) = _
    rw [hstatus]
    rfl
  obtain ⟨lines, hlines⟩ := mapM_isOk hline
  exact ⟨_, bind_eq_ok.mpr ⟨_, rfl, bind_eq_ok.mpr ⟨lines, hlines, rfl⟩⟩⟩

/-- What waits is kept in a variable. -/
theorem get?_of_pending {waiting : Value} (h : pending? id vars = some waiting) :
    vars.get? "pending_contracts" = some waiting := by
  unfold pending? at h
  split at h
  · next v _ hv _ =>
    split at h
    · rw [hv, Option.some.inj h]
    · cases h
  · cases h

/-- A reply among `waiting` contracts chooses one of them or none, unless it cannot be read. -/
theorem chosenAmong_replied (items : List Value) (a : String) :
    (∃ f, chosenAmong (.list items) (some a) = .error f) ∧ Unreadable a ∨
      ¬ Unreadable a ∧ (chosenAmong (.list items) (some a) = .ok none ∨
        ∃ i, i < items.length ∧ chosenAmong (.list items) (some a) = .ok (some i)) := by
  unfold chosenAmong
  dsimp only
  split
  · next ht =>
    have hread := wholeOf_isOk_iff ht
    cases hw : wholeOf a with
    | error f =>
        refine .inl ⟨⟨f, rfl⟩, ?_⟩
        by_contra hr
        obtain ⟨k, hk⟩ := hread.mpr hr
        rw [hw] at hk
        cases hk
    | ok k =>
        refine .inr ⟨hread.mp ⟨k, hw⟩, ?_⟩
        by_cases hzero : k = 0
        · exact .inl (if_pos hzero)
        · by_cases hle : k ≤ items.length
          · exact .inr ⟨k - 1, by omega, (if_neg hzero).trans (congrArg Except.ok (if_pos hle))⟩
          · exact .inl ((if_neg hzero).trans (congrArg Except.ok (if_neg hle)))
  · next ht => exact .inr ⟨fun h => ht h.1, .inl rfl⟩

theorem chooseContract_replied {d : Flow.ContractSearch} {waiting : List Fields}
    (hs : s.policy.strictRouting = false) (hv : Displayable vars) (hn : n.block = .contractSearch d)
    (hw : pending? n.id vars = some (.list (waiting.map .object))) (message : String) :
    Replied s n vars a (chooseContract s n.id d message (.list (waiting.map .object))
      (some a)) := by
  have hshort : (Value.list (waiting.map .object)).hasLongInt = false :=
    (Value.display_isOk_iff _).mp (hv _ _ (get?_of_pending hw))
  rw [chooseContract_eq]
  -- the answer is no number that can be read, or chooses nothing, or chooses a contract
  rcases chosenAmong_replied (waiting.map .object) a with ⟨⟨f, hf⟩, hu⟩ |
    ⟨hu, hnone | ⟨i, hi, hsome⟩⟩
  · rw [hf]
    exact .breaks ⟨.inr ⟨d, hn⟩, hu⟩
  · obtain ⟨list, hlist⟩ := contractList_isOk_of_shown hshort message
    rw [hnone]
    change Replied s n vars a (contractList message _ >>= _)
    rw [hlist]
    exact .repeats (fun h => hu h.2) ⟨rfl, rfl⟩
  · rw [List.length_map] at hi
    have hget : (waiting.map Value.object)[i]? = some (.object waiting[i]) := by
      rw [List.getElem?_map, List.getElem?_eq_getElem hi]
      rfl
    have hitem : itemAt (.list (waiting.map .object)) i = .ok (.object waiting[i]) := by
      dsimp only [itemAt, itemsOf, bind, Except.bind]
      rw [hget]
      rfl
    obtain ⟨e, he⟩ : ∃ e, contractFound s n.id d (.object waiting[i]) waiting.length = .ok e := by
      unfold contractFound
      rw [onward_lenient hs]
      exact ⟨_, rfl⟩
    rw [hsome]
    change Replied s n vars a (itemAt _ i >>= _)
    rw [hitem]
    change Replied s n vars a
      (contractFound s n.id d (.object waiting[i]) (waiting.map Value.object).length)
    rw [List.length_map, he]
    exact .accepts (fun h => hu h.2) (.chosen hn hw (List.getElem_mem hi) he)

/-! ### Captures -/

/-- A place in a list, counted from its beginning or from its end. -/
theorem fieldAt_isOk_iff {fields : List String} {i : Int} :
    (∃ field, fieldAt fields i = .ok field) ↔
      -(Number.twoTo 63 : Int) ≤ i ∧ -(fields.length : Int) ≤ i ∧ i < fields.length := by
  unfold fieldAt
  split
  · exact ⟨nofun, fun h => by omega⟩
  · generalize hplace : (if i < 0 then i + fields.length else i) = place
    dsimp only
    by_cases hneg : place < 0
    · rw [if_pos hneg]
      refine ⟨nofun, fun h => ?_⟩
      split at hplace <;> omega
    · rw [if_neg hneg]
      cases hget : fields[place.toNat]? with
      | none =>
          have hge := List.getElem?_eq_none_iff.mp hget
          refine ⟨nofun, fun h => ?_⟩
          split at hplace <;> omega
      | some field =>
          have hlt := (List.getElem?_eq_some_iff.mp hget).1
          refine ⟨fun _ => ?_, fun _ => ⟨field, rfl⟩⟩
          split at hplace <;> omega

/-- A lead that is settled never breaks off: what fails leaves by the handle for errors. -/
theorem finishLead_isOk {d : Flow.LeadCapture} {captured : Fields} {r : Except Fault Effect}
    (hs : s.policy.strictRouting = false) (hv : Displayable vars)
    (h : Program.Ends (finishLead s id vars d captured).run r) : ∃ e, r = .ok e := by
  rw [finishLead_run] at h
  obtain ⟨settled, -, h⟩ := Program.ends_bind_iff.mp h
  rcases settled with x | known | e
  · obtain ⟨said, hsaid⟩ := fill_isOk hv d.errorMessage
    obtain rfl := Program.ends_done_iff.mp h
    unfold leadFailed
    rw [hsaid, onward_lenient hs]
    exact ⟨_, rfl⟩
  · obtain ⟨said, hsaid⟩ := fill_isOk hv d.successMessage
    obtain rfl := Program.ends_done_iff.mp h
    unfold leadSaved
    rw [hsaid, onward_lenient hs]
    exact ⟨_, rfl⟩
  · exact ⟨e, Program.ends_done_iff.mp h⟩

/-- A lead that is settled leaves its node by one of three handles. -/
theorem finishLead_leads {d : Flow.LeadCapture} {captured : Fields}
    (hs : s.policy.strictRouting = false) (h : Gives (finishLead s id vars d captured) e) :
    Leads s.flow id e ∧ e.handle ∈ ["success", "duplicate", "error"] := by
  have hcourse {handle : String} {course : Course} (hc : s.onward id handle = .ok course) :
      course = .proceed ((s.flow.successor? id handle).map (·.id)) :=
    Except.ok.inj (hc.symm.trans (onward_lenient hs id handle))
  rcases gives_finishLead h with h | h | ⟨f, h⟩
  · obtain ⟨said, -, h⟩ := gives_bind.mp h
    obtain ⟨course, hc, h⟩ := gives_bind.mp h
    obtain rfl := gives_pure.mp h
    exact ⟨hcourse (gives_lift.mp hc), .tail _ (.head _)⟩
  · obtain ⟨said, -, h⟩ := bind_eq_ok.mp h
    obtain ⟨course, hc, h⟩ := bind_eq_ok.mp h
    obtain rfl := pure_eq_ok.mp h
    exact ⟨hcourse hc, .head _⟩
  · obtain ⟨said, -, h⟩ := bind_eq_ok.mp h
    obtain ⟨course, hc, h⟩ := bind_eq_ok.mp h
    obtain rfl := pure_eq_ok.mp h
    exact ⟨hcourse hc, .tail _ (.tail _ (.head _))⟩

theorem runLeadCapture_replied {d : Flow.LeadCapture} {i : Int} {field : String} {captured : Fields}
    {r : Except Fault Effect} (hs : s.policy.strictRouting = false) (hv : Displayable vars)
    (hn : n.block = .leadCapture d) (hi : cursor? n.id vars = some i)
    (hlt : i < d.enabledFields.length) (hf : fieldAt d.enabledFields i = .ok field)
    (hc : capturedSoFar vars = .ok captured)
    (h : Program.Ends (runLeadCapture s n.id vars d (some a)).run r) : Replied s n vars a r := by
  have hm : ¬ Misreads n a := by
    rintro ⟨⟨_, h⟩ | ⟨_, h⟩, -⟩ <;> simp [hn] at h
  obtain ⟨question, hq⟩ := fill_isOk hv (d.questionFor field)
  rw [runLeadCapture_open hi hlt hf, hq] at h
  change Program.Ends (answerLead s n.id vars d d.enabledFields i field question a).run r at h
  -- the answer is refused, or the capture goes on to the next field, or it is finished
  unfold answerLead at h
  dsimp only at h
  split at h
  · obtain rfl := Program.ends_done_iff.mp h
    exact .repeats hm ⟨rfl, rfl⟩
  · next ht =>
    replace ht : Answer.fieldTest field a = true := by simpa using ht
    rw [hc] at h
    change Program.Ends (ExceptT.run (if i + 1 < (d.enabledFields.length : Int) then _ else _)) r
      at h
    split at h
    · next hnext =>
      obtain ⟨lower, upper, -⟩ := fieldAt_isOk_iff.mp ⟨field, hf⟩
      obtain ⟨next, hfield⟩ := fieldAt_isOk_iff.mpr ⟨show _ ≤ i + 1 by omega, by omega, hnext⟩
      obtain ⟨question', hq'⟩ := fill_isOk hv (d.questionFor next)
      rw [hfield] at h
      change Program.Ends (ExceptT.run
        ((liftM (fill (d.questionFor next) vars) : Action String) >>= _)) r at h
      rw [hq'] at h
      obtain rfl := Program.ends_done_iff.mp h
      obtain ⟨node, hnode, hsame, -⟩ := capture_isOpen_iff.mp (Option.isSome_iff_exists.mpr ⟨i, hi⟩)
      refine .accepts hm (.captured hn hi hf ht rfl ?_)
      simp [cursor?, Entries.update, Entries.get?_put, hnode, hsame, Value.asWhole?]
    · next hlast =>
      obtain ⟨e, rfl⟩ := finishLead_isOk hs hv h
      obtain ⟨hleads, hhandle⟩ := finishLead_leads hs h
      exact .accepts hm (.settled hn hi hf ht (by omega) hleads hhandle)

/-! ### Replies -/

/-- A reply without its blanks, where there is anything else. -/
theorem givenAnswer_eq {reply : String} (h : Text.strip reply ≠ "") :
    givenAnswer (some reply) = some (Text.strip reply) := by
  unfold givenAnswer
  rw [Option.map_some]
  split
  · next heq => exact absurd (Option.some.inj heq) h
  · rfl

/-- What a step comes to that is handed a reply other than blanks. -/
theorem replied_of_awaits {session : Session} {r : Except Fault Effect}
    (hs : s.policy.strictRouting = false) (hv : Displayable session.vars)
    (hn : Awaits n session.vars) (h : Program.Ends (effectOf s n session (some a)).run r) :
    Replied s n session.vars a r := by
  unfold effectOf at h
  cases hn with
  | input hn hk =>
      rw [hn] at h
      obtain rfl := Program.ends_done_iff.mp h
      exact runInput_replied hs hv hn hk
  | menu hn =>
      rw [hn] at h
      obtain rfl := Program.ends_done_iff.mp h
      exact runMenu_replied hs hv hn
  | @contracts d waiting hn hw =>
      rw [hn] at h
      dsimp only at h
      obtain ⟨message, hm⟩ := fill_isOk hv d.selectionMessage
      unfold runContractSearch at h
      rw [hm, hw] at h
      obtain rfl := Program.ends_done_iff.mp h
      exact chooseContract_replied hs hv hn hw message
  | lead hn hi hlt hf hc =>
      rw [hn] at h
      exact runLeadCapture_replied hs hv hn hi hlt hf hc h

/-- A node that awaits a reply has a place from which it asks. -/
theorem Awaits.place (h : Awaits n vars) (hv : Displayable vars) : Place n vars := by
  cases h with
  | input hn => exact .input hn
  | menu hn => exact .menu hn
  | contracts hn hw =>
      obtain ⟨list, hl⟩ := contractList_isOk_of_shown
        ((Value.display_isOk_iff _).mp (hv _ _ (get?_of_pending hw))) ""
      exact .contracts hn hw hl
  | lead hn hi hlt hf => exact .lead hn hi hlt hf

/-- **A reply breaks a conversation just when it is misread.**  A node awaits a reply under lenient
routing, and all variables can be shown.  Whatever the reply and whatever the collaborators answer,
the step fails exactly on a menu or a choice among contracts whose reply counts as digits without
being a number that is read; otherwise it puts its question again, or accepts the reply without its
blanks. -/
theorem reply_breaks_iff {session : Session} (hs : s.policy.strictRouting = false)
    (hv : Displayable session.vars) (hn : Awaits n session.vars) (reply : String) {o : Outcome}
    (h : (run s n session (some reply)).Ends o) :
    ((∃ error, o = .failed error) ↔ Misreads n (Text.strip reply)) ∧
      ∀ e, o = .done e → e.Repeats ∨ Accepts s n session.vars (Text.strip reply) e := by
  by_cases hblank : Text.strip reply = ""
  -- a blank reply is none, and the node asks
  · have hnone : givenAnswer (some reply) = givenAnswer none := by simp [givenAnswer, hblank]
    obtain ⟨asked, hasks⟩ := asks_of_place (hn.place hv) hv
    have hrun : run s n session (some reply) =
        .done (.done { output := asked, course := .wait }) := by
      rw [← hasks s session rfl]
      unfold run
      rw [hnone]
    rw [hrun] at h
    obtain rfl := Program.ends_done_iff.mp h
    refine ⟨⟨nofun, fun hm => ?_⟩, fun e he => .inl ?_⟩
    · rw [hblank] at hm
      exact absurd hm.2.1 (by decide)
    · cases he
      exact ⟨rfl, rfl⟩
  · obtain ⟨r, hr, h⟩ := Program.ends_bind_iff.mp h
    obtain rfl := Program.ends_done_iff.mp h
    rw [givenAnswer_eq hblank] at hr
    cases replied_of_awaits hs hv hn hr with
    | breaks hm => exact ⟨⟨fun _ => hm, fun _ => ⟨_, rfl⟩⟩, nofun⟩
    | repeats hm hrep =>
        refine ⟨⟨nofun, fun h => absurd h hm⟩, fun e he => .inl ?_⟩
        cases he
        exact hrep
    | accepts hm hacc =>
        refine ⟨⟨nofun, fun h => absurd h hm⟩, fun e he => .inr ?_⟩
        cases he
        exact hacc

/-- Two ways to pay. -/
def payment : Flow.Node :=
  { id := "pay"
    block := .menu
      { menuTitle := "How will you pay?"
        options := [⟨"card", "By card", "", ""⟩, ⟨"cash", "In cash", "", ""⟩] } }

/-- A flow that asks how to pay. -/
def checkout : Setting :=
  ⟨{ id := "checkout", nodes := [{ id := "start", block := .start {} }, payment]
     edges := [{ source := "start", target := "pay" }] }, {}, {}⟩

/-- A session that was asked how to pay. -/
def payer : Session :=
  { id := "1", flowId := "checkout", contact := { id := "c" },
    vars := [("last_user_message", .text "hi")]
    startedAt := ⟨⟨2024, 1, 1⟩, 0, some 0⟩, lastActivityAt := ⟨⟨2024, 1, 1⟩, 0, some 0⟩ }

/-- The reply `²` to a menu of two choices makes the step fail. -/
theorem reply_breaks_iff_payment :
    checkout.policy.strictRouting = false ∧ Displayable payer.vars ∧ Awaits payment payer.vars ∧
      ∃ o, (run checkout payment payer (some "²")).Ends o ∧ ∃ error, o = .failed error := by
  have hv : Displayable payer.vars := by
    intro name v h
    obtain rfl | hne := eq_or_ne name "last_user_message"
    · obtain rfl : Value.text "hi" = v := Option.some.inj h
      exact ⟨"hi", rfl⟩
    · simp [payer, Entries.get?, hne.symm] at h
  have hn : Awaits payment payer.vars := .menu rfl
  have hm : Misreads payment (Text.strip "²") :=
    ⟨.inl ⟨_, rfl⟩, by decide, .inl ⟨'²', by decide, by decide⟩⟩
  refine ⟨rfl, hv, hn, _, Program.Ends.done _, ?_⟩
  exact (reply_breaks_iff rfl hv hn "²" (Program.Ends.done _)).1.mpr hm

end Parley.Step
