import Parley.Condition
import Parley.Proofs.Number.Integers
import Parley.Proofs.Text.Case

/-!
# Laws of comparisons

A rule compares the value of a variable, null when it is missing, with a value of its own:
`tells name a b` is what the rule tells by the comparison of that name (`holds_eq_tells`).

A comparison of texts knows its operands by their texts only (`apply_congr`), so a value and its
text can stand for each other, and two operands that have texts have an answer.  A comparison of
numbers has an answer too, no where an operand denotes no number, unless an operand is a whole
number beyond the binary64 numbers (`tells_greater`).  So between operands that can be shown and are
no such numbers (`Comparable`), the comparisons have answers, and these obey the laws that the names
promise (`comparisons_obey_laws`).

Two whole numbers are compared by their binary64 numbers, which stand in the same order or are the
same.  So what is said to be greater or less is so, and what is not said can be missed: exactly the
two whole numbers that have one binary64 number are told to be neither greater nor less
(`compared_exactly_iff`).
-/

namespace Parley.Condition

variable {a a' b b' c : Value} {o : Operator} {name : String} {v : Bool}

/-! ### What a rule says -/

/-- What a rule says of a variable's value and its own value. -/
def tells (name : String) (a b : Value) : Except Fault Bool :=
  ({ subject := "", operator := name, value := b } : Rule).holds [("", a)]

/-- A rule looks at its variable's value, its operator and its own value. -/
theorem holds_eq_tells (r : Rule) (vars : Fields) :
    r.holds vars = tells r.operator ((vars.get? r.subject).getD .null) r.value := rfl

/-- What is said is the answer of the comparison; most faults say no. -/
theorem tells_eq (hop : Operator.ofName? name = some o) : tells name a b =
    match o.apply a b with
    | .ok v => .ok v
    | .error .beyondFloat => .error .beyondFloat
    | .error .countTooLarge => .error .countTooLarge
    | .error _ => .ok false := by
  unfold tells Rule.holds
  rw [hop]
  rfl

theorem tells_ok (hop : Operator.ofName? name = some o) (h : o.apply a b = .ok v) :
    tells name a b = .ok v := by
  rw [tells_eq hop, h]

/-- Yes is only said as an answer. -/
theorem tells_true_iff (hop : Operator.ofName? name = some o) :
    tells name a b = .ok true ↔ o.apply a b = .ok true := by
  refine ⟨fun h => ?_, tells_ok hop⟩
  rw [tells_eq hop] at h
  split at h
  · next v hv => rw [hv, h]
  all_goals cases h

theorem tells_congr (hop : Operator.ofName? name = some o) (h : o.apply a b = o.apply a' b') :
    tells name a b = tells name a' b' := by
  rw [tells_eq hop, tells_eq hop, h]

/-! ### Texts -/

/-- The comparison looks at the texts of its operands. -/
def Operator.comparesTexts : Operator → Bool
  | .greaterThan | .lessThan | .matchesPattern => false
  | _ => true

/-- The names of the comparisons of texts. -/
def textual : List String :=
  ["equals", "not_equals", "contains", "starts_with", "ends_with", "is_empty", "is_not_empty"]

/-- A textual operator compares texts. -/
theorem exists_op_of_textual (h : name ∈ textual) :
    ∃ o, Operator.ofName? name = some o ∧ o.comparesTexts = true := by
  simp only [textual, List.mem_cons, List.not_mem_nil, or_false] at h
  rcases h with rfl | rfl | rfl | rfl | rfl | rfl | rfl <;> exact ⟨_, rfl, rfl⟩

/-- **A comparison of texts knows its operands by their texts only.** -/
theorem apply_congr (hop : o.comparesTexts = true) (ha : trimmed a = trimmed a')
    (hb : trimmed b = trimmed b') :
    o.apply a b = o.apply a' b' := by
  cases o with
  | greaterThan | lessThan | matchesPattern => cases hop
  | isEmpty | isNotEmpty => simp only [Operator.apply, ha]
  | equals | notEquals | contains | startsWith | endsWith =>
      simp only [Operator.apply, compareTexts, folded, ha, hb]

/-- A value has the text of its display. -/
theorem trimmed_text {t : String} (h : a.display = .ok t) : trimmed (.text t) = trimmed a := by
  unfold trimmed
  rw [h]
  rfl

/-- Two values that can be folded are compared as their folded texts. -/
theorem compareTexts_eq {x y : String} (ha : folded a = .ok x) (hb : folded b = .ok y)
    (test : String → String → Bool) :
    compareTexts a b test = .ok (test x y) := by
  unfold compareTexts
  rw [ha, hb]
  rfl

/-! ### Numbers -/

/-- The first operand denotes a number that is greater than the one that the second denotes. -/
def exceeds (a b : Value) : Bool :=
  match number a, number b with
  | .ok x, .ok y => y.lt x
  | _, _ => false

/-- One value is greater than another when it exceeds the other. -/
theorem greater_true_iff : tells "greater_than" a b = .ok true ↔ exceeds a b = true := by
  rw [tells_true_iff (o := .greaterThan) rfl]
  unfold Operator.apply compareNumbers exceeds
  cases number a <;> cases number b <;> simp [bind, Except.bind, pure, Except.pure]

theorem exceeds_trans (h : exceeds a b = true) (h' : exceeds b c = true) : exceeds a c = true := by
  unfold exceeds at *
  cases hx : number a <;> cases hy : number b <;> cases hz : number c <;>
    simp_all only [Bool.false_eq_true]
  exact Binary64.lt_trans h' h

theorem exceeds_irrefl : exceeds a a = false := by
  unfold exceeds
  cases number a with
  | error f => rfl
  | ok x => exact Binary64.lt_irrefl x

/-! ### Operands that can be compared -/

/-- The value can be shown, and is no whole number beyond the binary64 numbers. -/
structure Comparable (v : Value) : Prop where
  shown : ∃ t, v.display = .ok t
  within : ∀ n, v = .int n → Binary64.ofInt? n ≠ none

/-- An operand that can be shown has a text. -/
theorem Comparable.trimmed (h : Comparable a) : ∃ x, trimmed a = .ok x := by
  obtain ⟨t, ht⟩ := h.shown
  exact ⟨Text.strip t, by rw [Condition.trimmed, ht]; rfl⟩

/-- A value that can be compared can be folded. -/
theorem Comparable.folded (h : Comparable a) : ∃ x, folded a = .ok x := by
  obtain ⟨x, hx⟩ := h.trimmed
  exact ⟨Text.lower x, by rw [Condition.folded, hx]; rfl⟩

/-- An operand that denotes no number is only found to be none. -/
theorem Comparable.not_beyond (h : Comparable a) {f : Fault} (hf : number a = .error f) :
    f ≠ .beyondFloat ∧ f ≠ .countTooLarge := by
  cases a with
  | int n =>
      simp only [number] at hf
      cases hn : Binary64.ofInt? n with
      | none => exact absurd hn (h.within n rfl)
      | some x => simp [hn] at hf
  | text s =>
      simp only [number] at hf
      split at hf
      · cases hf
      · cases hf
        exact ⟨nofun, nofun⟩
  | float x => cases hf
  | null | bool | list | object =>
      cases hf
      exact ⟨nofun, nofun⟩

/-- The comparison of two operands as numbers, by a test. -/
theorem tells_numbers (hop : Operator.ofName? name = some o) {test : Binary64 → Binary64 → Bool}
    (htest : ∀ a b, o.apply a b = compareNumbers a b test) (ha : Comparable a) (hb : Comparable b) :
    tells name a b = .ok (match number a, number b with
      | .ok x, .ok y => test x y
      | _, _ => false) := by
  rw [tells_eq hop, htest]
  unfold compareNumbers
  cases hx : number a with
  | error f =>
      obtain ⟨hfloat, hcount⟩ := ha.not_beyond hx
      cases f <;> first | rfl | contradiction
  | ok x =>
      cases hy : number b with
      | ok y => rfl
      | error f =>
          obtain ⟨hfloat, hcount⟩ := hb.not_beyond hy
          cases f <;> first | rfl | contradiction

/-- Values that can be compared are told greater when they exceed. -/
theorem tells_greater (ha : Comparable a) (hb : Comparable b) :
    tells "greater_than" a b = .ok (exceeds a b) :=
  tells_numbers (o := .greaterThan) rfl (fun _ _ => rfl) ha hb

/-- They are told less when they are exceeded. -/
theorem tells_less (ha : Comparable a) (hb : Comparable b) :
    tells "less_than" a b = .ok (exceeds b a) := by
  rw [tells_numbers (o := .lessThan) rfl (fun _ _ => rfl) ha hb]
  unfold exceeds
  cases number a <;> cases number b <;> rfl

/-! ### The laws -/

/-- What is said by a comparison of the texts of two operands in lower case. -/
theorem Comparable.tells_texts (ha : Comparable a) (hb : Comparable b) : ∃ x y : String,
    tells "equals" a b = .ok (x == y) ∧ tells "not_equals" a b = .ok (x != y) ∧
    tells "contains" a b = .ok (Text.contains y x) ∧
      tells "starts_with" a b = .ok (y.toList.isPrefixOf x.toList) ∧
    tells "ends_with" a b = .ok (y.toList.isSuffixOf x.toList) := by
  obtain ⟨x, hx⟩ := ha.folded
  obtain ⟨y, hy⟩ := hb.folded
  exact ⟨x, y, tells_ok (o := .equals) rfl (compareTexts_eq hx hy _),
    tells_ok (o := .notEquals) rfl (compareTexts_eq hx hy _),
    tells_ok (o := .contains) rfl (compareTexts_eq hx hy _), tells_ok (o := .startsWith) rfl
      (compareTexts_eq hx hy _), tells_ok (o := .endsWith) rfl (compareTexts_eq hx hy _)⟩

/-- What is said of an operand's being empty. -/
theorem Comparable.tells_empty (ha : Comparable a) (b : Value) : ∃ x : String,
    tells "is_empty" a b = .ok (x == "") ∧ tells "is_not_empty" a b = .ok (x != "") := by
  obtain ⟨x, hx⟩ := ha.trimmed
  have hmap (test : String → Bool) : (Condition.trimmed a).map test = .ok (test x) := by
    rw [hx]; rfl
  exact ⟨x, tells_ok (o := .isEmpty) rfl (hmap _), tells_ok (o := .isNotEmpty) rfl (hmap _)⟩

/-- **The comparisons obey the laws that their names promise.**  Between operands that can be shown
and are no whole numbers beyond the binary64 numbers, every comparison but that with a pattern has
an answer.  The negated comparisons negate; equal texts begin and end with each other, and a text
contains what it begins or ends with; being greater and being less exclude each other, are converse,
and being greater is transitive; and a comparison of texts does not tell a value from its text. -/
theorem comparisons_obey_laws (ha : Comparable a) (hb : Comparable b) :
    (∀ name ∈ textual ++ ["greater_than", "less_than"], ∃ v, tells name a b = .ok v) ∧
    (tells "not_equals" a b = (tells "equals" a b).map (!·) ∧
      tells "is_not_empty" a b = (tells "is_empty" a b).map (!·)) ∧
    (tells "equals" a b = .ok true → tells "starts_with" a b = .ok true ∧
      tells "ends_with" a b = .ok true) ∧
    (tells "starts_with" a b = .ok true ∨ tells "ends_with" a b = .ok true →
      tells "contains" a b = .ok true) ∧
    (¬ (tells "greater_than" a b = .ok true ∧ tells "less_than" a b = .ok true) ∧
      tells "less_than" a b = tells "greater_than" b a ∧
      ∀ c, tells "greater_than" a b = .ok true → tells "greater_than" b c = .ok true →
        tells "greater_than" a c = .ok true) ∧
    ∀ t u, a.display = .ok t → b.display = .ok u → ∀ name ∈ textual,
      tells name (.text t) b = tells name a b ∧ tells name a (.text u) = tells name a b := by
  -- each verdict in one form first; a law is then one of texts or of an order
  obtain ⟨x, y, heq, hne, hcont, hstart, hend⟩ := ha.tells_texts hb
  obtain ⟨z, hemp, hnemp⟩ := ha.tells_empty b
  have hgt := tells_greater ha hb
  have hlt := tells_less ha hb
  refine ⟨?_, ⟨?_, ?_⟩, fun h => ?_, fun h => ?_, ⟨fun h => ?_, ?_, fun c h h' => ?_⟩,
    fun t u ht hu name hname => ?_⟩
  · simp only [textual, List.cons_append, List.nil_append, List.forall_mem_cons]
    exact ⟨⟨_, heq⟩, ⟨_, hne⟩, ⟨_, hcont⟩, ⟨_, hstart⟩, ⟨_, hend⟩, ⟨_, hemp⟩, ⟨_, hnemp⟩,
      ⟨_, hgt⟩, ⟨_, hlt⟩, List.forall_mem_nil _⟩
  · rw [hne, heq]
    rfl
  · rw [hnemp, hemp]
    rfl
  · rw [heq] at h
    obtain rfl : x = y := by simpa using h
    rw [hstart, hend]
    simp
  · rw [hstart, hend] at h
    rw [hcont, Text.contains, Text.occursIn_iff.mpr]
    rcases h with h | h
    · exact (List.isPrefixOf_iff_prefix.mp (Except.ok.inj h)).isInfix
    · exact (List.isSuffixOf_iff_suffix.mp (Except.ok.inj h)).isInfix
  · rw [hgt, hlt] at h
    have hself := exceeds_trans (Except.ok.inj h.1) (Except.ok.inj h.2)
    rw [exceeds_irrefl] at hself
    cases hself
  · rw [hlt, tells_greater hb ha]
  · exact greater_true_iff.mpr (exceeds_trans (greater_true_iff.mp h) (greater_true_iff.mp h'))
  · obtain ⟨o, hop, htexts⟩ := exists_op_of_textual hname
    exact ⟨tells_congr hop (apply_congr htexts (trimmed_text ht) rfl),
      tells_congr hop (apply_congr htexts rfl (trimmed_text hu))⟩

/-- An age as a number and an age as it was typed can be compared; the first is greater than
whatever the second is greater than, and begins with what its text begins with. -/
theorem comparisons_obey_laws_ages :
    (Comparable (.int 25) ∧ Comparable (.text " 18,5 ")) ∧
    tells "greater_than" (.int 25) (.text " 18,5 ") = .ok true ∧
    tells "greater_than" (.text " 18,5 ") (.text "-3e0") = .ok true ∧
    tells "greater_than" (.int 25) (.text "-3e0") = .ok true ∧
    tells "starts_with" (.text "25") (.text " 18,5 ") = tells "starts_with" (.int 25)
      (.text " 18,5 ") := by
  have hage : Comparable (.int 25) :=
    ⟨(Value.display_isOk_iff _).mpr (by unfold Value.hasLongInt Number.isTooLong; decide +kernel),
        fun n hn => by
      cases hn
      decide +kernel⟩
  have htyped : Comparable (.text " 18,5 ") := ⟨⟨_, rfl⟩, nofun⟩
  have hgreater : tells "greater_than" (.int 25) (.text " 18,5 ") = .ok true := by decide +kernel
  have hother : tells "greater_than" (.text " 18,5 ") (.text "-3e0") = .ok true := by decide +kernel
  have hshown : (Value.int 25).display = .ok "25" := by decide +kernel
  obtain ⟨-, -, -, -, ⟨-, -, htrans⟩, htexts⟩ := comparisons_obey_laws hage htyped
  exact ⟨⟨hage, htyped⟩, hgreater, hother, htrans _ hgreater hother,
    (htexts "25" " 18,5 " hshown rfl "starts_with" (by decide)).1⟩

end Parley.Condition

/-! ### Whole numbers -/

namespace Parley.Condition

open Binary64 (ofInt?)

variable {a b : Int} {x y : Binary64}

theorem number_int (ha : ofInt? a = some x) : number (.int a) = .ok x := by
  simp only [number, ha]

/-- Two whole numbers are compared by their binary64 numbers. -/
theorem compareNumbers_int (ha : ofInt? a = some x) (hb : ofInt? b = some y)
    (test : Binary64 → Binary64 → Bool) :
    compareNumbers (.int a) (.int b) test = .ok (test x y) := by
  unfold compareNumbers
  rw [number_int ha, number_int hb]
  rfl

/-- A whole number is said to be greater than another one if it is and the two have different
numbers. -/
theorem tells_greater_int (ha : ofInt? a = some x) (hb : ofInt? b = some y) :
    tells "greater_than" (.int a) (.int b) = .ok (decide (b < a ∧ x ≠ y)) := by
  rw [tells_ok (o := .greaterThan) rfl (compareNumbers_int ha hb _)]
  exact congrArg _ (Bool.eq_iff_iff.mpr (by simpa [ne_comm] using Binary64.lt_ofInt_iff hb ha))

/-- Whole numbers are told less when they are, unless they are rounded to one number. -/
theorem tells_less_int (ha : ofInt? a = some x) (hb : ofInt? b = some y) :
    tells "less_than" (.int a) (.int b) = .ok (decide (a < b ∧ x ≠ y)) := by
  rw [tells_ok (o := .lessThan) rfl (compareNumbers_int ha hb _)]
  exact congrArg _ (Bool.eq_iff_iff.mpr (by simpa using Binary64.lt_ofInt_iff ha hb))

/-- **Whole numbers are compared exactly unless two have one binary64 number.**  One is said to be
greater or less than the other when it is and their binary64 numbers differ.  So what is said is
right, and all that is so is said exactly of two whole numbers that are the same or have different
binary64 numbers.  Those which have the same are 2 ^ 53 at least, and one part in 2 ^ 52 apart at
most. -/
theorem compared_exactly_iff (ha : ofInt? a = some x) (hb : ofInt? b = some y) :
    (tells "greater_than" (.int a) (.int b) = .ok (decide (b < a ∧ x ≠ y)) ∧
      tells "less_than" (.int a) (.int b) = .ok (decide (a < b ∧ x ≠ y))) ∧
    ((tells "greater_than" (.int a) (.int b) = .ok true ↔ b < a) ∧
      (tells "less_than" (.int a) (.int b) = .ok true ↔ a < b) ↔ (x = y → a = b)) ∧
    (x = y → a ≠ b →
      2 ^ 53 ≤ a.natAbs ∧ 2 ^ 53 ≤ b.natAbs ∧ (a - b).natAbs * 2 ^ 52 ≤ min a.natAbs b.natAbs) := by
  refine ⟨⟨tells_greater_int ha hb, tells_less_int ha hb⟩, ?_, ?_⟩
  · rw [tells_greater_int ha hb, tells_less_int ha hb]
    simp only [Except.ok.injEq, decide_eq_true_eq, and_iff_left_iff_imp]
    constructor
    · rintro ⟨hgreater, hless⟩ he
      by_contra hne
      rcases lt_or_gt_of_ne hne with hlt | hlt
      · exact hless hlt he
      · exact hgreater hlt he
    · exact fun h => ⟨fun hlt he => hlt.ne' (h he), fun hlt he => hlt.ne (h he)⟩
  · rintro rfl hne
    exact Binary64.apart_of_ofInt_eq ha hb hne

/-- The numbers of two accounts that follow each other are compared as if they were one: the greater
one is not said to be greater. -/
theorem compared_exactly_iff_accounts :
    ∃ x, ofInt? 9007199254740993 = some x ∧ ofInt? 9007199254740992 = some x ∧
    tells "greater_than" (.int 9007199254740993) (.int 9007199254740992) = .ok false ∧
    ¬ ((tells "greater_than" (.int 9007199254740993) (.int 9007199254740992) = .ok true ↔
        (9007199254740992 : Int) < 9007199254740993) ∧
      (tells "less_than" (.int 9007199254740993) (.int 9007199254740992) = .ok true ↔
        (9007199254740993 : Int) < 9007199254740992)) := by
  obtain ⟨x, hx⟩ : ∃ x, ofInt? 9007199254740993 = some x :=
    Option.isSome_iff_exists.mp (by decide +kernel)
  have hy : ofInt? 9007199254740992 = some x := hx ▸ by decide +kernel
  obtain ⟨⟨hgreater, -⟩, hiff, -⟩ := compared_exactly_iff hx hy
  refine ⟨x, hx, hy, by simpa using hgreater, fun h => ?_⟩
  exact absurd (hiff.mp h rfl) (by decide)

end Parley.Condition
