import Parley.Proofs.Condition.Laws
import Parley.Proofs.Step.Replies

/-!
# When conditions decide

A comparison that cannot be made says no: a text that is no number, a value that cannot be shown, a
pattern that is malformed.  Two comparisons that cannot be made break off instead, since their
faults are of another kind (`Overruns`): one with a whole number beyond the binary64 numbers, and
one with a pattern that counts further than is allowed.  Nothing else does (`holds_error_iff`).

Rules are asked in their order, and the first that says no settles the matter, so an overrun is met
only behind rules that all hold (`Breaks`).  Where none is met the rules are decided, by their
conjunction; and where none lurks at all, in whatever order they are asked.  A condition node under
lenient routing does what its rules do: it fails when they break off, and otherwise is left by
`true` or by `false` (`conditions_decide_iff`).
-/

namespace Parley.Value

variable {v : Value} {f : Fault}

/-- The display of a value fails only on a whole number that is too long. -/
theorem display_error (h : v.display = .error f) : f = .tooLongToWrite := by
  have hjson (w : Value) (h : w.json .compact = .error f) : f = .tooLongToWrite := by
    unfold Value.json at h
    split at h
    · exact (Except.error.inj h).symm
    · cases h
  cases v with
  | int n =>
      simp only [display] at h
      split at h
      · exact (Except.error.inj h).symm
      · cases h
  | float x =>
      simp only [display] at h
      split at h <;> cases h
  | null | bool | text => cases h
  | list | object => exact hjson _ h

/-- So does the text of a value in stored texts. -/
theorem plain_error (h : v.plain = .error f) : f = .tooLongToWrite := by
  unfold plain at h
  split at h
  · cases h
  · split at h
    · exact (Except.error.inj h).symm
    · cases h

end Parley.Value

namespace Parley.Condition

open Step (Setting Effect)

variable {a b v : Value} {op : Operator} {f : Fault} {vars : Fields} {r : Rule} {rules : List Rule}

/-! ### Faults that are not taken for a no -/

/-- The fault is not taken for a no. -/
def IsLoud (f : Fault) : Prop := f = .beyondFloat ∨ f = .countTooLarge

theorem not_isLoud_tooLong : ¬ IsLoud .tooLongToWrite := nofun

/-- A comparison is told with a fault when its operator comes to a loud one. -/
theorem tells_error_iff {name : String} (hop : Operator.ofName? name = some op) :
    tells name a b = .error f ↔ op.apply a b = .error f ∧ IsLoud f := by
  rw [tells_eq hop]
  cases op.apply a b with
  | ok v => simp
  | error f' => cases f' <;> simp [IsLoud] <;> grind

/-- Two operands are looked at one after the other. -/
theorem both_error_iff {α β γ : Type} {p : Except Fault α} {q : Except Fault β} {test : α → β → γ} :
    (do let x ← p; let y ← q; return test x y) = Except.error f ↔
      p = .error f ∨ (∃ x, p = .ok x) ∧ q = .error f := by
  cases p <;> cases q <;> simp [bind, Except.bind, pure, Except.pure]

theorem map_error {α β : Type} {p : Except Fault α} {g : α → β} (h : p.map g = .error f) :
    p = .error f := by
  cases p with
  | ok x => cases h
  | error f' => exact congrArg Except.error (Except.error.inj h)

/-- A text cannot be had only where the operand cannot be shown. -/
theorem trimmed_error (h : trimmed v = .error f) : ¬ IsLoud f := by
  obtain rfl := Value.display_error (map_error h)
  exact not_isLoud_tooLong

theorem folded_error (h : folded v = .error f) : ¬ IsLoud f := trimmed_error (map_error h)

/-- The value is a whole number beyond the binary64 numbers. -/
def IsBeyond (v : Value) : Prop := ∃ n, v = .int n ∧ Binary64.ofInt? n = none

/-- The loud fault of a number is that it is beyond binary64. -/
theorem number_error_iff : number v = .error f ∧ IsLoud f ↔ f = .beyondFloat ∧ IsBeyond v := by
  constructor
  · rintro ⟨h, hloud⟩
    cases v with
    | int n =>
        simp only [number] at h
        split at h
        · cases h
        · next hn =>
          cases h
          exact ⟨rfl, n, rfl, hn⟩
    | text s =>
        simp only [number] at h
        split at h
        · cases h
        · cases h
          cases hloud <;> contradiction
    | float x => cases h
    | null | bool | list | object =>
        cases h
        cases hloud <;> contradiction
  · rintro ⟨rfl, n, rfl, hn⟩
    exact ⟨by simp [number, hn], .inl rfl⟩

/-! ### One rule -/

/-- The comparison of two operands breaks off with a fault. -/
inductive Overruns (a b : Value) : Operator → Fault → Prop where
  | first {order : Operator} (ho : order = .greaterThan ∨ order = .lessThan) (ha : IsBeyond a) :
      Overruns a b order .beyondFloat
  /-- The second number is looked at when the first operand denotes one. -/
  | second {order : Operator} {x : Binary64} (ho : order = .greaterThan ∨ order = .lessThan)
      (ha : number a = .ok x)
      (hb : IsBeyond b) : Overruns a b order .beyondFloat
  | pattern {p t : String} (hb : b.plain = .ok p) (ha : a.display = .ok t)
      (hp : Pattern.read p = .error .countTooLarge) : Overruns a b .matchesPattern .countTooLarge

theorem compareTexts_error {test : String → String → Bool} (h : compareTexts a b test = .error f) :
    ¬ IsLoud f := by
  rcases both_error_iff.mp h with ha | ⟨-, hb⟩
  · exact folded_error ha
  · exact folded_error hb

/-- Numbers are compared with a loud fault when one is beyond binary64 and comes first. -/
theorem compareNumbers_error_iff {test : Binary64 → Binary64 → Bool} :
    compareNumbers a b test = .error f ∧ IsLoud f ↔
      f = .beyondFloat ∧ (IsBeyond a ∨ (∃ x, number a = .ok x) ∧ IsBeyond b) := by
  unfold compareNumbers
  rw [both_error_iff, or_and_right, and_assoc, number_error_iff, number_error_iff, and_or_left,
    and_left_comm]

/-- A pattern is read when it and the text can be had. -/
theorem occurs_error_iff : occurs a b = .error f ∧ IsLoud f ↔ f = .countTooLarge ∧
    ∃ p t, b.plain = .ok p ∧ a.display = .ok t ∧ Pattern.read p = .error .countTooLarge := by
  unfold occurs
  constructor
  · rintro ⟨h, hloud⟩
    -- what is too long to be shown fails first, and that fault is not loud
    cases hb : b.plain with
    | error f' =>
        rw [hb] at h
        obtain rfl : f' = f := Except.error.inj h
        obtain rfl := Value.plain_error hb
        exact absurd hloud not_isLoud_tooLong
    | ok p =>
        cases ha : a.display with
        | error f' =>
            rw [hb, ha] at h
            obtain rfl : f' = f := Except.error.inj h
            obtain rfl := Value.display_error ha
            exact absurd hloud not_isLoud_tooLong
        | ok t =>
            rw [hb, ha] at h
            dsimp only [bind, Except.bind] at h
            split at h
            · cases h
            · cases h
            · next hp =>
              exact ⟨(Except.error.inj h).symm, p, t, rfl, rfl, hp⟩
            · cases h
              cases hloud <;> contradiction
  · rintro ⟨rfl, p, t, hb, ha, hp⟩
    refine ⟨?_, .inr rfl⟩
    rw [hb, ha]
    dsimp only [bind, Except.bind]
    rw [hp]
    rfl

/-- **A comparison breaks off only when it overruns.** -/
theorem apply_error_iff : op.apply a b = .error f ∧ IsLoud f ↔ Overruns a b op f := by
  constructor
  · intro h
    cases op with
    | equals | notEquals | contains | startsWith | endsWith =>
        exact absurd h.2 (compareTexts_error h.1)
    | isEmpty | isNotEmpty => exact absurd h.2 (trimmed_error (map_error h.1))
    | greaterThan =>
        obtain ⟨rfl, ha | ⟨⟨x, ha⟩, hb⟩⟩ := compareNumbers_error_iff.mp h
        · exact .first (.inl rfl) ha
        · exact .second (.inl rfl) ha hb
    | lessThan =>
        obtain ⟨rfl, ha | ⟨⟨x, ha⟩, hb⟩⟩ := compareNumbers_error_iff.mp h
        · exact .first (.inr rfl) ha
        · exact .second (.inr rfl) ha hb
    | matchesPattern =>
        obtain ⟨rfl, p, t, hb, ha, hp⟩ := occurs_error_iff.mp h
        exact .pattern hb ha hp
  · intro h
    cases h with
    | first ho ha =>
        rcases ho with rfl | rfl <;> exact compareNumbers_error_iff.mpr ⟨rfl, .inl ha⟩
    | second ho ha hb =>
        rcases ho with rfl | rfl <;> exact compareNumbers_error_iff.mpr ⟨rfl, .inr ⟨⟨_, ha⟩, hb⟩⟩
    | pattern hb ha hp => exact occurs_error_iff.mpr ⟨rfl, _, _, hb, ha, hp⟩

/-- The comparison that a rule makes of a variable overruns. -/
def Rule.Overruns (vars : Fields) (r : Rule) (f : Fault) : Prop :=
  ∃ op, Operator.ofName? r.operator = some op ∧
    Condition.Overruns ((vars.get? r.subject).getD .null) r.value op f

/-- A rule comes to a fault when it overruns. -/
theorem holds_error_iff : r.holds vars = .error f ↔ r.Overruns vars f := by
  rw [holds_eq_tells]
  constructor
  · intro h
    cases hop : Operator.ofName? r.operator with
    | none =>
        unfold tells Rule.holds at h
        rw [hop] at h
        cases h
    | some op => exact ⟨op, hop, apply_error_iff.mp ((tells_error_iff hop).mp h)⟩
  · rintro ⟨op, hop, h⟩
    exact (tells_error_iff hop).mpr (apply_error_iff.mpr h)

/-! ### All rules -/

/-- A rule overruns, and those before it hold. -/
inductive Breaks (vars : Fields) (f : Fault) : List Rule → Prop where
  | here {r : Rule} {rest : List Rule} (h : r.Overruns vars f) : Breaks vars f (r :: rest)
  | later {r : Rule} {rest : List Rule} (hr : r.holds vars = .ok true) (h : Breaks vars f rest) :
      Breaks vars f (r :: rest)

/-- Rules are checked up to the first that does not hold. -/
theorem allHold_cons (vars : Fields) (r : Rule) (rules : List Rule) : allHold vars (r :: rules) =
    match r.holds vars with
    | .ok true => allHold vars rules
    | .ok false => .ok false
    | .error f => .error f := by
  rw [allHold]
  cases r.holds vars with
  | ok v => cases v <;> rfl
  | error f => rfl

/-- **Rules break off** at one that overruns, behind rules that hold. -/
theorem allHold_error_iff : allHold vars rules = .error f ↔ Breaks vars f rules := by
  induction rules with
  | nil => exact ⟨nofun, nofun⟩
  | cons q rest ih =>
      rw [allHold_cons]
      constructor
      · intro h
        split at h
        · next hq => exact .later hq (ih.mp h)
        · cases h
        · next hq =>
          cases h
          exact .here (holds_error_iff.mp hq)
      · intro h
        cases h with
        | here h => rw [holds_error_iff.mpr h]
        | later hq h => rw [hq, ih.mpr h]

/-- **Rules that are decided are decided by their conjunction.** -/
theorem allHold_ok {v : Bool} (h : allHold vars rules = .ok v) :
    v = true ↔ ∀ r ∈ rules, r.holds vars = .ok true := by
  induction rules with
  | nil =>
      obtain rfl := Except.ok.inj h
      exact ⟨fun _ => List.forall_mem_nil _, fun _ => rfl⟩
  | cons q rest ih =>
      rw [allHold_cons] at h
      rw [List.forall_mem_cons]
      split at h
      · next hq => rw [ih h, hq, and_iff_right rfl]
      · next hq =>
        obtain rfl := Except.ok.inj h
        rw [hq]
        exact ⟨nofun, fun h => by cases h.1⟩
      · cases h

/-- Where nothing overruns, rules are decided. -/
theorem Breaks.exists_overruns (h : Breaks vars f rules) : ∃ r ∈ rules, r.Overruns vars f := by
  induction h with
  | here h => exact ⟨_, List.mem_cons_self, h⟩
  | later _ _ ih =>
      obtain ⟨r, hr, h⟩ := ih
      exact ⟨r, List.mem_cons_of_mem _ hr, h⟩

/-- Rules come to a verdict when none of them breaks. -/
theorem exists_allHold (h : ∀ f, ¬ Breaks vars f rules) : ∃ v, allHold vars rules = .ok v := by
  cases hall : allHold vars rules with
  | ok v => exact ⟨v, rfl⟩
  | error f => exact absurd (allHold_error_iff.mp hall) (h f)

/-- Where nothing overruns, the order of the rules does not matter. -/
theorem allHold_perm {rules' : List Rule} (hperm : rules'.Perm rules)
    (h : ∀ r ∈ rules, ∀ f, ¬ r.Overruns vars f) :
    allHold vars rules' = allHold vars rules := by
  have hcalm {part : List Rule} (hsub : ∀ r ∈ part, r ∈ rules) :
      ∀ f, ¬ Breaks vars f part := fun f hb => by
    obtain ⟨r, hr, ho⟩ := hb.exists_overruns
    exact h r (hsub r hr) f ho
  obtain ⟨v, hv⟩ := exists_allHold (hcalm fun r hr => hr)
  obtain ⟨v', hv'⟩ := exists_allHold (hcalm fun r hr => hperm.mem_iff.mp hr)
  have hsame : v' = true ↔ v = true := by
    rw [allHold_ok hv, allHold_ok hv']
    simp only [hperm.mem_iff]
  rw [hv, hv', Bool.eq_iff_iff.mpr hsame]

/-! ### The node -/

/-- What a condition node does when its rules are decided. -/
def branching (s : Setting) (id : String) (v : Bool) : Effect :=
  let handle := if v then "true" else "false"
  { course := .proceed ((s.flow.successor? id handle).map (·.id)),
    changes := [("condition_result", .bool v)], metadata := [("handle", .text handle)] }

/-- **A condition node under lenient routing does what its rules do.** -/
theorem run_condition {s : Setting} {n : Flow.Node} {d : Flow.Branch}
    (hs : s.policy.strictRouting = false) (hn : n.block = .condition d) (session : Session)
    (answer : Option String) :
    Step.run s n session answer = .done (match allHold session.vars d.conditions with
      | .ok v => .done (branching s n.id v)
      | .error f => .failed f.report) := by
  simp only [Step.run, Step.effectOf, hn, Step.runCondition]
  cases allHold session.vars d.conditions with
  | error f => rfl
  | ok v =>
      simp only [Step.onward_lenient hs, branching]
      cases v <;> rfl

/-- **Conditions decide unless they break off.**  A rule breaks off exactly when its comparison
overruns, and the rules of a node at a rule that overruns behind rules that hold.  Otherwise they
are decided, by their conjunction; and if no rule overruns, in any order alike.  Under lenient
routing a condition node fails exactly where its rules break off, and is otherwise left by `true` or
by `false`. -/
theorem conditions_decide_iff (rules : List Rule) (vars : Fields) :
    (∀ (r : Rule) f, r.holds vars = .error f ↔ r.Overruns vars f) ∧
    (∀ f, allHold vars rules = .error f ↔ Breaks vars f rules) ∧
    (∀ v, allHold vars rules = .ok v → (v = true ↔ ∀ r ∈ rules, r.holds vars = .ok true)) ∧
    ((∀ r ∈ rules, ∀ f, ¬ r.Overruns vars f) → (∃ v, allHold vars rules = .ok v) ∧
      ∀ rules', rules'.Perm rules → allHold vars rules' = allHold vars rules) ∧
    ∀ (s : Setting) (n : Flow.Node) (d : Flow.Branch) (session : Session) (answer : Option String),
      s.policy.strictRouting = false → n.block = .condition d → d.conditions = rules →
        session.vars = vars →
      (∀ f, Breaks vars f rules → Step.run s n session answer = .done (.failed f.report)) ∧
      ((∀ f, ¬ Breaks vars f rules) → ∃ v, allHold vars rules = .ok v ∧
        Step.run s n session answer = .done (.done (branching s n.id v))) := by
  refine ⟨fun r f => holds_error_iff, fun f => allHold_error_iff, fun v => allHold_ok,
    fun h => ⟨?_, ?_⟩, ?_⟩
  · refine exists_allHold fun f hb => ?_
    obtain ⟨r, hr, ho⟩ := hb.exists_overruns
    exact h r hr f ho
  · exact fun rules' hperm => allHold_perm hperm h
  · rintro s n d session answer hs hn rfl rfl
    have hrun := run_condition hs hn session answer
    refine ⟨fun f hb => ?_, fun h => ?_⟩
    · rw [hrun, allHold_error_iff.mpr hb]
    · obtain ⟨v, hv⟩ := exists_allHold h
      exact ⟨v, hv, by rw [hrun, hv]⟩

/-- A rule whose pattern counts further than is allowed. -/
def serial :
    Rule := { subject := "serial", operator := "matches_regex", value := .text "[0-9]{4294967295}" }

/-- A node that asks for the serial number. -/
def serialCheck : Flow.Node := { id := "check", block := .condition { conditions := [serial] } }

/-- A flow with the node. -/
def serials : Setting :=
  ⟨{ id := "serials", nodes := [{ id := "start", block := .start {} }, serialCheck]
     edges := [{ source := "start", target := "check" }] }, {}, {}⟩

/-- A session with a serial number. -/
def holder : Session := { Step.payer with flowId := "serials", vars := [("serial", .text "123")] }

/-- The node fails on its pattern; behind a rule that says no the pattern is not looked at. -/
theorem conditions_decide_iff_serials :
    Breaks holder.vars .countTooLarge [serial] ∧
    Step.run serials serialCheck holder none =
      .done (.failed "the repetition number is too large") ∧
    allHold holder.vars [{ subject := "serial", operator := "is_empty" }, serial] = .ok false := by
  have hover : serial.holds holder.vars = .error .countTooLarge := by decide +kernel
  have hbreaks : Breaks holder.vars .countTooLarge [serial] :=
    .here (((conditions_decide_iff [serial] holder.vars).1 serial _).mp hover)
  obtain ⟨-, -, -, -, hnode⟩ := conditions_decide_iff [serial] holder.vars
  exact ⟨hbreaks, (hnode serials serialCheck _ holder none rfl rfl rfl rfl).1 _ hbreaks,
    by decide +kernel⟩

end Parley.Condition
