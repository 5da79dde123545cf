import Parley.Proofs.Condition.Verdicts
import Parley.Proofs.Json.Numbers
import Parley.Proofs.Template.Parts

/-!
# Nodes that only speak

A message, a hand-off, an ending, a variable that is written, and the questions of an input, a menu
and a welcoming assistant need nothing but texts: the node fills its templates, and its step is made
of them (`Speaks`, `Speaks.effectOf`).

Filling a template fails for one reason: a variable that is named in it holds, at whatever depth, a
whole number with more digits than are written (`Strains`).  So under lenient routing a node that
only speaks fails exactly when one of its templates does, and always with the same fault
(`filling_breaks_iff`).
-/

namespace Parley.Value

/-- The whole number stands in the value, at whatever depth. -/
inductive HasInt (n : Int) : Value → Prop where
  | int : HasInt n (.int n)
  | item {items : List Value} {v : Value} (hv : v ∈ items) (h : HasInt n v) : HasInt n (.list items)
  | entry {fields : List (String × Value)} {e : String × Value} (he : e ∈ fields)
      (h : HasInt n e.2) :
      HasInt n (.object fields)

mutual

/-- A value that is too long to write has a whole number that is. -/
theorem exists_hasInt :
    ∀ {v : Value}, v.hasLongInt = true → ∃ n, v.HasInt n ∧ Number.isTooLong n = true
  | .int n, h => ⟨n, .int, h⟩
  | .list items, h => by
    obtain ⟨v, hv, n, hn, hlong⟩ := exists_hasInt_items h
    exact ⟨n, .item hv hn, hlong⟩
  | .object fields, h => by
    obtain ⟨e, he, n, hn, hlong⟩ := exists_hasInt_fields h
    exact ⟨n, .entry he hn, hlong⟩
  | .null, h | .bool _, h | .float _, h | .text _, h => by cases h

theorem exists_hasInt_items : ∀ {items : List Value}, hasLongIntItems items = true →
    ∃ v ∈ items, ∃ n, v.HasInt n ∧ Number.isTooLong n = true
  | v :: rest, h => by
    rcases Bool.or_eq_true_iff.mp h with h | h
    · exact ⟨v, List.mem_cons_self, exists_hasInt h⟩
    · obtain ⟨w, hw, hlong⟩ := exists_hasInt_items h
      exact ⟨w, List.mem_cons_of_mem _ hw, hlong⟩

theorem exists_hasInt_fields : ∀ {fields : List (String × Value)}, hasLongIntFields fields = true →
    ∃ e ∈ fields, ∃ n, e.2.HasInt n ∧ Number.isTooLong n = true
  | (k, v) :: rest, h => by
    rcases Bool.or_eq_true_iff.mp h with h | h
    · exact ⟨(k, v), List.mem_cons_self, exists_hasInt h⟩
    · obtain ⟨e, he, hlong⟩ := exists_hasInt_fields h
      exact ⟨e, List.mem_cons_of_mem _ he, hlong⟩

end

/-- A whole number that is too long makes the value so. -/
theorem HasInt.hasLongInt {v : Value} {n : Int} (h : v.HasInt n) (hn : Number.isTooLong n = true) :
    v.hasLongInt = true := by
  induction h with
  | int => exact hn
  | item hv _ ih =>
      by_contra hshort
      exact Bool.false_ne_true
        ((hasLongIntItems_eq_false.mp (Bool.eq_false_iff.mpr hshort) _ hv).symm.trans ih)
  | entry he _ ih =>
      by_contra hshort
      exact Bool.false_ne_true
        ((hasLongIntFields_eq_false.mp (Bool.eq_false_iff.mpr hshort) _ he).symm.trans ih)

/-- **A value can be shown** unless a whole number in it has too many digits. -/
theorem display_isOk_iff_hasInt {v : Value} :
    (∃ s, v.display = .ok s) ↔ ∀ n, v.HasInt n → n.natAbs < Number.tenTo Number.digitLimit := by
  rw [display_isOk_iff]
  constructor
  · intro hshort n hn
    by_contra hlong
    have htoo : Number.isTooLong n = true := Bool.not_eq_false _ ▸ mt Json.not_isTooLong.mp hlong
    exact Bool.false_ne_true (hshort.symm.trans (hn.hasLongInt htoo))
  · intro h
    by_contra hlong
    obtain ⟨n, hn, htoo⟩ := exists_hasInt (Bool.not_eq_false _ ▸ hlong)
    rw [Json.not_isTooLong.mpr (h n hn)] at htoo
    cases htoo

end Parley.Value

namespace Parley.Template

open Json (map_eq_ok bind_eq_ok)

variable {vars : Fields} {ps : List Piece} {text : String} {f : Fault}

/-- The text has a slot for a variable in which a whole number stands that has too many digits to be
written. -/
def Strains (vars : Fields) (text : String) : Prop :=
  ∃ name v n, HasSlotOf text.toList name ∧ vars.get? (String.ofList name) = some v ∧ v.HasInt n ∧
    Number.tenTo Number.digitLimit ≤ n.natAbs

/-- A piece is filled when the variable of its slot can be displayed. -/
theorem filled_isOk_iff {p : Piece} : (∃ here, p.filled vars = .ok here) ↔
    ∀ name v, p = .slot name → vars.get? (String.ofList name) = some v → ∃ s,
      v.display = .ok s := by
  cases p with
  | char c => exact ⟨fun _ => nofun, fun _ => ⟨[c], rfl⟩⟩
  | slot name =>
      cases hv : vars.get? (String.ofList name) with
      | none =>
          refine ⟨fun _ other v hname hother => ?_, fun _ => ⟨_, by rw [Piece.filled, hv]⟩⟩
          cases hname
          cases hv.symm.trans hother
      | some v =>
          constructor
          · rintro ⟨here, h⟩ other w hname hother
            cases hname
            obtain rfl := Option.some.inj (hv.symm.trans hother)
            rw [Piece.filled, hv] at h
            obtain ⟨s, hs, -⟩ := map_eq_ok.mp h
            exact ⟨s, hs⟩
          · intro h
            obtain ⟨s, hs⟩ := h name v rfl hv
            exact ⟨_, filled_slot hv hs⟩

/-- Pieces are filled when each of them is. -/
theorem fillPieces_isOk_iff : (∃ filled, fillPieces vars ps = .ok filled) ↔
    ∀ p ∈ ps, ∃ here, p.filled vars = .ok here := by
  induction ps with
  | nil => exact ⟨fun _ => List.forall_mem_nil _, fun _ => ⟨[], rfl⟩⟩
  | cons p ps ih =>
      rw [List.forall_mem_cons, ← ih, fillPieces]
      constructor
      · rintro ⟨filled, h⟩
        obtain ⟨here, hhere, h⟩ := bind_eq_ok.mp h
        obtain ⟨after, hafter, -⟩ := bind_eq_ok.mp h
        exact ⟨⟨here, hhere⟩, after, hafter⟩
      · rintro ⟨⟨here, hhere⟩, after, hafter⟩
        exact ⟨here ++ after, by rw [hhere, hafter]; rfl⟩

/-- **A template can be filled** unless it strains. -/
theorem fill_isOk_iff : (∃ filled, fill text vars = .ok filled) ↔ ¬ Strains vars text := by
  have hpieces : (∃ filled, fill text vars = .ok filled) ↔
      ∃ filled, fillPieces vars (pieces text.toList) = .ok filled := by
    constructor
    · rintro ⟨filled, h⟩
      obtain ⟨cs, hcs, -⟩ := map_eq_ok.mp h
      exact ⟨cs, hcs⟩
    · rintro ⟨cs, h⟩
      exact ⟨_, map_eq_ok.mpr ⟨cs, h, rfl⟩⟩
  rw [hpieces, fillPieces_isOk_iff]
  constructor
  · rintro h ⟨name, v, n, hslot, hv, hn, hlong⟩
    have hshown := filled_isOk_iff.mp (h _ (slot_mem_pieces_iff.mpr hslot)) name v rfl hv
    exact Nat.not_lt.mpr hlong (Value.display_isOk_iff_hasInt.mp hshown n hn)
  · intro h p hp
    refine filled_isOk_iff.mpr fun name v hname hv => Value.display_isOk_iff_hasInt.mpr
      fun n hn => ?_
    by_contra hlong
    exact h ⟨name, v, n, slot_mem_pieces_iff.mp (hname ▸ hp), hv, hn, Nat.not_lt.mp hlong⟩

/-- Filling fails for one reason only. -/
theorem filled_error {p : Piece} (h : p.filled vars = .error f) : f = .tooLongToWrite := by
  cases p with
  | char c => cases h
  | slot name =>
      rw [Piece.filled] at h
      split at h
      · exact Value.display_error (Condition.map_error h)
      · cases h

/-- Pieces are not filled only because a number is too long. -/
theorem fillPieces_error (h : fillPieces vars ps = .error f) : f = .tooLongToWrite := by
  induction ps with
  | nil => cases h
  | cons p ps ih =>
      rcases Condition.both_error_iff.mp h with hp | ⟨-, hps⟩
      · exact filled_error hp
      · exact ih hps

/-- A template that strains is not filled, for one reason; any other is. -/
theorem fill_cases (vars : Fields) (text : String) :
    Strains vars text ∧ fill text vars = .error .tooLongToWrite ∨
      ¬ Strains vars text ∧ ∃ filled, fill text vars = .ok filled := by
  by_cases hstrains : Strains vars text
  · refine .inl ⟨hstrains, ?_⟩
    cases h : fill text vars with
    | ok filled => exact absurd hstrains (fill_isOk_iff.mp ⟨filled, h⟩)
    | error f => rw [fillPieces_error (Condition.map_error h)]
  · exact .inr ⟨hstrains, fill_isOk_iff.mpr hstrains⟩

/-- Templates that are filled one after the other. -/
theorem mapM_fill_cases (vars : Fields) (texts : List String) :
    (∃ text ∈ texts, Strains vars text) ∧ texts.mapM (fill · vars) = .error .tooLongToWrite ∨
      (∀ text ∈ texts, ¬ Strains vars text) ∧ ∃ filled, texts.mapM (fill · vars) = .ok filled := by
  induction texts with
  | nil => exact .inr ⟨List.forall_mem_nil _, [], rfl⟩
  | cons text texts ih =>
      rw [List.mapM_cons]
      rcases fill_cases vars text with ⟨hstrains, h⟩ | ⟨hcalm, filled, h⟩
      · exact .inl ⟨⟨text, List.mem_cons_self, hstrains⟩, by rw [h]; rfl⟩
      · rw [h]
        rcases ih with ⟨⟨other, hother, hstrains⟩, h⟩ | ⟨hcalms, others, h⟩
        · exact .inl ⟨⟨other, List.mem_cons_of_mem _ hother, hstrains⟩, by rw [h]; rfl⟩
        · exact .inr ⟨List.forall_mem_cons.mpr ⟨hcalm, hcalms⟩, filled :: others, by rw [h]; rfl⟩

end Parley.Template

namespace Parley.Step

open Template (fill Strains)

variable {s : Setting} {n : Flow.Node} {vars : Fields} {answer : Option String}
  {texts : List String}

/-- What the node does with the answer needs these texts filled, one after the other, and nothing
else that could fail: no collaborator, and no answer that cannot be tested. -/
inductive Speaks (n : Flow.Node) : Option String → List String → Prop where
  | message {d : Flow.Message} {answer : Option String} (hn : n.block = .message d) :
      Speaks n answer (d.message :: if d.mediaUrl = "" then [] else [d.mediaUrl])
  | handoff {d : Flow.Transfer} {answer : Option String} (hn : n.block = .handoff d) :
      Speaks n answer [d.targetId, d.transferMessage]
  | ending {d : Flow.Ending} {answer : Option String} (hn : n.block = .ending d) :
      Speaks n answer [d.finalMessage]
  | assignment {d : Flow.Assignment} {answer : Option String} (hn : n.block = .assignment d) :
      Speaks n answer (if d.valueType = "expression" then [d.value] else [])
  | question {d : Flow.Question} (hn : n.block = .input d) : Speaks n none [d.question]
  | refused {d : Flow.Question} {a : String} (hn : n.block = .input d)
      (ha : Answer.isValid a d.validationType d.customValidation = .ok false) :
        Speaks n (some a) [d.errorMessage]
  | taken {d : Flow.Question} {a : String} (hn : n.block = .input d)
      (ha : Answer.isValid a d.validationType d.customValidation = .ok true) : Speaks n (some a) []
  | menu {d : Flow.Menu} (hn : n.block = .menu d) : Speaks n none [d.menuTitle]
  | unmatched {d : Flow.Menu} {a : String} (hn : n.block = .menu d)
      (ha : matchOption a d.options d.allowText = .ok none) :
        Speaks n (some a) [d.menuTitle, d.invalidMessage]
  | chosen {d : Flow.Menu} {a : String} {c : Flow.Choice} (hn : n.block = .menu d)
      (ha : matchOption a d.options d.allowText = .ok (some c)) : Speaks n (some a) [d.menuTitle]
  | greeting {d : Flow.Welcome} (hn : n.block = .welcome d) : Speaks n none [d.greetingMessage]

/-- The texts are filled, one after the other, and the effect is made of them. -/
def Made (vars : Fields) (texts : List String) (r : Except Fault Effect) : Prop :=
  ∃ make : List String → Effect, r = (texts.mapM (fill · vars)).map make

theorem Made.pure (e : Effect) : Made vars [] (pure e) := ⟨fun _ => e, rfl⟩

/-- An effect is made of one more text that is filled. -/
theorem Made.bind {text : String} {g : String → Except Fault Effect}
    (h : ∀ said, Made vars texts (g said)) :
    Made vars (text :: texts) (fill text vars >>= g) := by
  choose make hmake using h
  refine ⟨fun said => make (said.headD "") said.tail, ?_⟩
  rw [List.mapM_cons]
  cases fill text vars with
  | error f => rfl
  | ok said =>
      refine (hmake said).trans ?_
      cases texts.mapM (fill · vars) <;> rfl

theorem Made.map_bind {α : Type} {text : String} {f : String → α} {g : α → Except Fault Effect}
    (h : ∀ said, Made vars texts (g (f said))) :
    Made vars (text :: texts) ((fill text vars).map f >>= g) := by
  have heq : ((fill text vars).map f >>= g) = fill text vars >>= fun said => g (f said) := by
    cases fill text vars <;> rfl
  rw [heq]
  exact .bind h

/-- The texts of the node are filled, and its effect is made of them. -/
theorem Speaks.effectOf (hs : s.policy.strictRouting = false) (h : Speaks n answer texts)
    (session : Session) :
    ∃ r, Made session.vars texts r ∧ Step.effectOf s n session answer =
      (liftM r : Action Effect) := by
  have honward (handle : String) := onward_lenient hs n.id handle
  unfold Step.effectOf
  -- kind by kind: the texts are filled one after the other, and nothing else can fail
  cases h with
  | @message d _ hn =>
      rw [hn]
      refine ⟨_, ?_, rfl⟩
      unfold runMessage
      rw [honward]
      refine .bind fun said => ?_
      split
      · exact .pure _
      · exact .bind fun _ => .pure _
  | handoff hn =>
      rw [hn]
      exact ⟨_, .bind fun _ => .bind fun _ => .pure _, rfl⟩
  | ending hn =>
      rw [hn]
      exact ⟨_, .bind fun _ => .pure _, rfl⟩
  | @assignment d _ hn =>
      rw [hn]
      refine ⟨_, ?_, rfl⟩
      unfold runAssignment
      rw [honward]
      split
      · next hkind =>
        rw [hkind]
        exact .map_bind fun _ => .pure _
      · next hkind =>
        split
        · split <;> exact .pure _
        · next hkind' => exact absurd hkind' hkind
        · exact .pure _
  | question hn =>
      rw [hn]
      exact ⟨_, .bind fun _ => .pure _, rfl⟩
  | refused hn ha =>
      rw [hn]
      refine ⟨_, ?_, rfl⟩
      simp only [runInput, ha]
      exact .bind fun _ => .pure _
  | taken hn ha =>
      rw [hn]
      refine ⟨_, ?_, rfl⟩
      simp only [runInput, ha, honward]
      exact .pure _
  | menu hn =>
      rw [hn]
      exact ⟨_, .bind fun _ => .pure _, rfl⟩
  | unmatched hn ha =>
      rw [hn]
      refine ⟨_, ?_, rfl⟩
      simp only [runMenu, ha]
      exact .bind fun _ => .bind fun _ => .pure _
  | chosen hn ha =>
      rw [hn]
      refine ⟨_, ?_, rfl⟩
      simp only [runMenu, ha, honward]
      exact .bind fun _ => .pure _
  | @greeting d hn =>
      rw [hn]
      refine ⟨fill d.greetingMessage session.vars >>= fun said =>
        .ok { output := .one said, course := .wait },
        .bind fun _ => .pure _, ?_⟩
      simp only [runWelcome]
      cases fill d.greetingMessage session.vars <;> rfl

/-- **Filling breaks a step only on numbers that are too long.**  A text is filled unless it has a
slot for a variable in which, at whatever depth, a whole number stands with more digits than are
written; nothing else in a variable prevents it.  So under lenient routing a node that needs nothing
but its texts fails exactly when one of them strains, and always for this reason. -/
theorem filling_breaks_iff (vars : Fields) :
    (∀ text, (∃ filled, fill text vars = .ok filled) ↔ ¬ Strains vars text) ∧
    ∀ (s : Setting) (n : Flow.Node) (session : Session) (answer : Option String)
      (texts : List String),
      s.policy.strictRouting = false → session.vars = vars → Speaks n (givenAnswer answer) texts →
      (∃ text ∈ texts, Strains vars text) ∧
          run s n session answer = .done (.failed Fault.tooLongToWrite.report) ∨
        (∀ text ∈ texts, ¬ Strains vars text) ∧ ∃ e, run s n session answer = .done (.done e) := by
  refine ⟨fun text => Template.fill_isOk_iff, ?_⟩
  rintro s n session answer texts hs rfl h
  obtain ⟨r, ⟨make, rfl⟩, heffect⟩ := h.effectOf hs session
  rw [run, heffect]
  rcases Template.mapM_fill_cases session.vars texts with ⟨hstrains, h⟩ | ⟨hcalm, filled, h⟩
  · rw [h]
    exact .inl ⟨hstrains, rfl⟩
  · rw [h]
    exact .inr ⟨hcalm, make filled, rfl⟩

/-- What tells a balance. -/
def balanceTold : Flow.Message := { message := "Your balance: \x7bbalance\x7d" }

/-- A node that tells a balance. -/
def balance : Flow.Node := { id := "balance", block := .message balanceTold }

/-- A flow with the node. -/
def account : Setting :=
  ⟨{ id := "account", nodes := [{ id := "start", block := .start {} }, balance]
     edges := [{ source := "start", target := "balance" }] }, {}, {}⟩

/-- A session with so much in the balance. -/
def saver (n : Int) :
    Session :=
      { payer with flowId := "account", vars := [("balance", .object [("total", .int n)])] }

theorem strains_balance {n : Int} :
    Strains (saver n).vars balanceTold.message ↔ Number.tenTo Number.digitLimit ≤ n.natAbs := by
  constructor
  · rintro ⟨name, v, m, -, hv, hm, hlong⟩
    have hmem := Entries.mem_of_get? hv
    obtain ⟨-, rfl⟩ := Prod.mk.inj (List.mem_singleton.mp hmem)
    cases hm with
    | entry he hm =>
        cases List.mem_singleton.mp he
        cases hm
        exact hlong
  · intro hlong
    have hslot : Template.HasSlotOf balanceTold.message.toList "balance".toList :=
      ⟨⟨by decide, List.all_eq_true.mp (by decide +kernel)⟩, "Your balance: ".toList, [], by decide⟩
    exact ⟨"balance".toList, _, n, hslot, rfl, .entry List.mem_cons_self .int, hlong⟩

/-- A balance of two digits is told; the least number that has too many is not. -/
theorem filling_breaks_iff_account :
    (∃ e, run account balance (saver 42) none = .done (.done e)) ∧
      run account balance (saver (Number.tenTo Number.digitLimit)) none =
        .done (.failed Fault.tooLongToWrite.report) := by
  have hspeaks : Speaks balance (givenAnswer none) [balanceTold.message] :=
    @Speaks.message balance balanceTold (givenAnswer none) rfl
  have hshort : ¬ Strains (saver 42).vars balanceTold.message := fun h => by
    have hlong := strains_balance.mp h
    have hten : Number.tenTo 2 ≤ Number.tenTo Number.digitLimit := Number.tenTo_le (by decide)
    exact absurd (hten.trans hlong) (by decide)
  have hlong := strains_balance.mpr (Int.natAbs_natCast (Number.tenTo Number.digitLimit)).ge
  constructor
  · rcases (filling_breaks_iff _).2 account balance (saver 42) none _ rfl rfl hspeaks with
      ⟨⟨text, htext, h⟩, -⟩ | ⟨-, h⟩
    · exact absurd (List.mem_singleton.mp htext ▸ h) hshort
    · exact h
  · rcases (filling_breaks_iff _).2 account balance
      (saver _) none _ rfl rfl hspeaks with ⟨-, h⟩ | ⟨h, -⟩
    · exact h
    · exact absurd hlong (h _ List.mem_cons_self)

end Parley.Step
