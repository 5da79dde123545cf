import Parley.Proofs.Number.Digits
import Parley.Proofs.Step.Replies
import Parley.Proofs.Text.Case

/-!
# What a menu selects

A menu numbers its options from 1, and the number of an option is a reply that picks it
(`picks_number`).  Where text is allowed, a reply that is no number picks the first option that it
answers (`answers`): the reply is part of the option's label, or is its value, without regard to
case.

A label answers its own option (`answers_own`), so it picks that option unless it answers an earlier
one (`menu_selects`).  It may answer an earlier one even though all labels differ: `Plan` is part of
`Family plan` (`menu_option_shadowed`).
-/

namespace Parley.Text

/-- An ASCII digit is a decimal digit, of the same value. -/
theorem decimalValue?_of_isDigit {c : Char} (h : c.isDigit = true) :
    decimalValue? c = some (c.toNat - '0'.toNat) := by
  obtain ⟨hlo, hhi⟩ : 48 ≤ c.toNat ∧ c.toNat ≤ 57 := Char.isDigit_iff_toNat.mp h
  have hzero : digitZeros.find? (fun z => z ≤ c.toNat && c.toNat < z + 10) = some 0x30 :=
    List.find?_cons_of_pos (by simp; omega)
  rw [decimalValue?, hzero]
  rfl

theorem isBlank_of_isDigit {c : Char} (h : c.isDigit = true) : isBlank c = false := by
  obtain ⟨hlo, hhi⟩ : 48 ≤ c.toNat ∧ c.toNat ≤ 57 := Char.isDigit_iff_toNat.mp h
  simp only [isBlank, Bool.or_eq_false_iff, Bool.and_eq_false_iff, decide_eq_false_iff_not,
    beq_eq_false_iff_ne]
  omega

end Parley.Text

namespace Parley.Number

theorem isDigit_of_mem_natText {n : Nat} {c : Char} (h : c ∈ (natText n).toList) :
    c.isDigit = true := by
  rw [natText, String.toList_ofList] at h
  exact Nat.isDigit_of_mem_toDigits (by omega) (by omega) h

theorem natText_ne_empty (n : Nat) : natText n ≠ "" := by
  intro h
  have hnil := congrArg String.toList h
  rw [natText, String.toList_ofList] at hnil
  exact Nat.toDigits_ne_nil hnil

theorem strip_natText (n : Nat) : Text.strip (natText n) = natText n := by
  rw [Text.strip, Text.stripBy_eq_self fun c hc =>
    Text.isBlank_of_isDigit (isDigit_of_mem_natText hc),
    String.ofList_toList]

theorem isDigitText_natText (n : Nat) : Text.isDigitText (natText n) = true := by
  have hall : (natText n).toList.all Text.isDigitLike = true := List.all_eq_true.mpr fun c hc => by
    simp [Text.isDigitLike, Text.isDecimal, Text.decimalValue?_of_isDigit
      (isDigit_of_mem_natText hc)]
  simp [Text.isDigitText, hall, natText_ne_empty n]

/-- A number in decimal is read back, unless it has too many digits. -/
theorem readIndex_natText {n : Nat} (h : (natText n).length ≤ digitLimit) :
    readIndex (natText n) = .ok n := by
  have hdec : ∀ c ∈ (natText n).toList, Text.isDecimal c = true := fun c hc => by
    simp [Text.isDecimal, Text.decimalValue?_of_isDigit (isDigit_of_mem_natText hc)]
  have hvalue : (natText n).toList.filterMap Text.decimalValue? =
      (natText n).toList.filterMap digit? :=
    List.filterMap_congr fun c hc => by
      rw [Text.decimalValue?_of_isDigit (isDigit_of_mem_natText hc),
        digit?_eq_some (isDigit_of_mem_natText hc)]
  have hread : ofDigits ((natText n).toList.filterMap digit?) = n := by
    rw [natText, String.toList_ofList]
    exact ofDigitChars_toDigits n
  rw [readIndex, List.takeWhile_eq_self_iff.mpr hdec, String.length_toList,
    if_neg (Nat.not_lt.mpr h), hvalue, hread, if_neg (by simp [natText_ne_empty n])]

end Parley.Number

namespace Parley.Step

open Number (natText digitLimit)
open Template (fill)

variable {s : Setting} {n : Flow.Node} {session : Session} {d : Flow.Menu} {c : Flow.Choice}

/-! ### Picking an option -/

/-- The way on by an option, with what is written of it. -/
def selecting (s : Setting) (id : String) (c : Flow.Choice) : Except Fault Effect := do
  return { course := ← s.onward id c.id, changes := [("menu_selection",
    .text (orElseText c.value c.label))],
           metadata := [("handle", .text c.id)] }

/-- The reply picks the option: it is matched with it, and the step goes on by it. -/
structure Picks (s : Setting) (n : Flow.Node) (d : Flow.Menu) (session : Session) (reply : String)
    (c : Flow.Choice) : Prop where
  matched : ∃ a, givenAnswer (some reply) = some a ∧ matchOption a d.options d.allowText =
    .ok (some c)
  goes : run s n session (some reply) = .done (.ofResult (selecting s n.id c))

/-- The reply is part of the option's label, or is its value, without regard to case. -/
def answers (reply : String) (c : Flow.Choice) :
    Bool := choiceAnswered (Text.lower (Text.strip reply)) c

/-- What is matched is picked, once the title is filled in. -/
theorem Picks.of_match {title a reply : String} (hn : n.block = .menu d)
    (ht : fill d.menuTitle session.vars = .ok title) (ha : givenAnswer (some reply) = some a)
    (hm : matchOption a d.options d.allowText = .ok (some c)) :
    Picks s n d session reply c := by
  refine ⟨⟨a, ha, hm⟩, ?_⟩
  have heffect : runMenu s n.id session.vars d (some a) = selecting s n.id c := by
    unfold runMenu
    rw [ht]
    dsimp only [bind, Except.bind]
    rw [hm]
    rfl
  simp only [run, effectOf, hn, ha, heffect]
  rfl

/-- A reply picks at most one option. -/
theorem Picks.unique {reply : String} {c' : Flow.Choice} (h : Picks s n d session reply c)
    (h' : Picks s n d session reply c') : c = c' := by
  obtain ⟨a, ha, hm⟩ := h.matched
  obtain ⟨a', ha', hm'⟩ := h'.matched
  obtain rfl := Option.some.inj (ha.symm.trans ha')
  exact Option.some.inj (Except.ok.inj (hm.symm.trans hm'))

/-- A menu without a reply shows its options. -/
theorem runs_to_menu {title : String} (hn : n.block = .menu d)
    (ht : fill d.menuTitle session.vars = .ok title) :
    run s n session none =
      .done (.done { output := .one (renderMenu title d.options), course := .wait }) := by
  simp only [run, effectOf, hn, givenAnswer, Option.map_none, runMenu, ht]
  rfl

/-! ### Numbers -/

/-- The number of an option is matched with it. -/
theorem matchOption_natText {options : List Flow.Choice} {i : Nat} (hc : options[i]? = some c)
    (hlen : (natText (i + 1)).length ≤ digitLimit) (allowText : Bool) :
    matchOption (natText (i + 1)) options allowText = .ok (some c) := by
  have hi : i < options.length := (List.getElem?_eq_some_iff.mp hc).1
  have hwhole : wholeOf (natText (i + 1)) = .ok (i + 1) := by
    unfold wholeOf
    rw [Number.readIndex_natText hlen]
  have hchoice : choiceOf (natText (i + 1)) options.length = .ok (some i) := by
    unfold choiceOf
    rw [if_pos (Number.isDigitText_natText _), hwhole]
    exact congrArg Except.ok (if_pos ⟨by omega, by omega⟩)
  unfold matchOption
  rw [hchoice]
  dsimp only [bind, Except.bind, Option.bind]
  rw [hc]
  rfl

/-- **The number of an option picks it.** -/
theorem picks_number {title : String} (hn : n.block = .menu d)
    (ht : fill d.menuTitle session.vars = .ok title) {i : Nat} (hc : d.options[i]? = some c)
    (hlen : (natText (i + 1)).length ≤ digitLimit) :
    Picks s n d session (natText (i + 1)) c := by
  have hne : Text.strip (natText (i + 1)) ≠ "" := by
    rw [Number.strip_natText]
    exact Number.natText_ne_empty _
  have ha := givenAnswer_eq hne
  rw [Number.strip_natText] at ha
  exact .of_match hn ht ha (matchOption_natText hc hlen _)

/-- The lines of a menu: each option with its number. -/
theorem numbered_get? (lines : List String) (i : Nat) :
    (numbered lines)[i]? = lines[i]?.map fun line => natText (i + 1) ++ ". " ++ line := by
  rw [numbered, List.getElem?_map, List.getElem?_zipIdx, Option.map_map]
  simp [Function.comp_def, Nat.add_comm]

/-! ### Labels -/

/-- A label answers its own option. -/
theorem answers_own (c : Flow.Choice) : answers c.label c = true := by
  unfold answers choiceAnswered
  rw [Text.contains_lower_strip]
  rfl

/-- A reply that is no number is matched with the first option that it answers. -/
theorem matchOption_text {reply : String} (hdigits : Text.isDigitText (Text.strip reply) = false)
    (options : List Flow.Choice) :
    matchOption (Text.strip reply) options true = .ok (options.find? (answers reply)) := by
  unfold matchOption choiceOf
  rw [if_neg (by simp [hdigits])]
  rfl

variable {reply title : String}

/-- The reply picks the first option that it answers. -/
theorem picks_text_iff (hn : n.block = .menu d) (ht : fill d.menuTitle session.vars = .ok title)
    (htext : d.allowText = true)
    (hblank : Text.strip reply ≠ "") (hdigits : Text.isDigitText (Text.strip reply) = false) :
    Picks s n d session reply c ↔ d.options.find? (answers reply) = some c := by
  have hm := matchOption_text hdigits d.options
  have ha := givenAnswer_eq hblank
  refine ⟨fun ⟨⟨a, ha', hm'⟩, _⟩ => ?_, fun hf => .of_match hn ht ha (by rw [htext, hm, hf])⟩
  obtain rfl := Option.some.inj (ha.symm.trans ha')
  rw [htext, hm] at hm'
  exact Except.ok.inj hm'

/-- The option at an index is the first that the reply answers. -/
structure AnswersFirst (options : List Flow.Choice) (reply : String) (k : Nat) (c : Flow.Choice) :
    Prop where
  at_index : options[k]? = some c
  here : answers reply c = true
  not_before : ∀ i c', i < k → options[i]? = some c' → answers reply c' = false

/-- What is found stands at an index. -/
theorem exists_answersFirst {options : List Flow.Choice}
    (h : options.find? (answers reply) = some c) :
    ∃ k, AnswersFirst options reply k c := by
  obtain ⟨hans, k, hk, rfl, hbefore⟩ := List.find?_eq_some_iff_getElem.mp h
  refine ⟨k, List.getElem?_eq_getElem hk, hans, fun i c' hi hc' => ?_⟩
  obtain ⟨hlt, rfl⟩ := List.getElem?_eq_some_iff.mp hc'
  simpa using hbefore i hi

theorem AnswersFirst.find? {options : List Flow.Choice} {k : Nat}
    (h : AnswersFirst options reply k c) :
    options.find? (answers reply) = some c := by
  obtain ⟨hk, hget⟩ := List.getElem?_eq_some_iff.mp h.at_index
  exact List.find?_eq_some_iff_getElem.mpr ⟨h.here, k, hk, hget, fun i hi => by
    simp [h.not_before i _ hi (List.getElem?_eq_getElem (by omega))]⟩

/-- **A menu selects what it shows.**  A menu without a reply shows its options below its title,
each with its number, and the number of an option picks it, as long as a number of that many digits
is read at all.

Suppose the labels, without the blanks at their ends, are not empty, not made of digits, and
pairwise different in lower case, and text is allowed.  The label of an option picks the first
option that it answers, which is that option or an earlier one; so it picks its own option just when
it answers none of the earlier ones. -/
theorem menu_selects (hn : n.block = .menu d) (ht : fill d.menuTitle session.vars = .ok title)
    (hdiffer : (d.options.map fun c => Text.lower (Text.strip c.label)).Nodup)
    (hblank : ∀ c ∈ d.options, Text.strip c.label ≠ "")
    (hdigits : ∀ c ∈ d.options, Text.isDigitText (Text.strip c.label) = false) :
    (∃ lines : List String,
      run s n session none = .done (.done {
        output := .one ("\n".intercalate ((if title = "" then [] else [title, ""]) ++ lines)),
          course := .wait }) ∧
      lines.length = d.options.length ∧
      ∀ i c, d.options[i]? = some c → lines[i]? = some (natText (i + 1) ++ ". " ++ c.label) ∧
        ((natText (i + 1)).length ≤ digitLimit → Picks s n d session (natText (i + 1)) c)) ∧
    (d.allowText = true → ∀ (k : Nat) c, d.options[k]? = some c →
      (∃ j c', j ≤ k ∧ AnswersFirst d.options c.label j c' ∧ Picks s n d session c.label c') ∧
      (Picks s n d session c.label c ↔ AnswersFirst d.options c.label k c)) := by
  refine ⟨⟨numbered (d.options.map (·.label)), runs_to_menu hn ht,
    by simp [numbered], fun i c hc => ?_⟩, fun htext k c hc => ?_⟩
  · refine ⟨?_, picks_number hn ht hc⟩
    rw [numbered_get?, List.getElem?_map, hc]
    rfl
  · have hmem : c ∈ d.options := List.mem_of_getElem? hc
    have hpicks {c' : Flow.Choice} :=
      picks_text_iff (s := s) (c := c') hn ht htext (hblank c hmem) (hdigits c hmem)
    obtain ⟨first, hfirst⟩ :=
      Option.isSome_iff_exists.mp (List.find?_isSome.mpr ⟨c, hmem, answers_own c⟩)
    obtain ⟨j, hj⟩ := exists_answersFirst hfirst
    -- an option after this one is not the first, since the label answers its own option
    have hle : j ≤ k := by
      by_contra hlt
      have hown := hj.not_before k c (by omega) hc
      rw [answers_own] at hown
      cases hown
    refine ⟨⟨j, first, hle, hj, hpicks.mpr hfirst⟩, fun h => ?_, fun h => hpicks.mpr h.find?⟩
    obtain rfl : first = c := Option.some.inj (hfirst.symm.trans (hpicks.mp h))
    -- options with different labels are different, so its index is the only one
    obtain ⟨hk, hck⟩ := List.getElem?_eq_some_iff.mp hc
    obtain ⟨hjlt, hcj⟩ := List.getElem?_eq_some_iff.mp hj.at_index
    obtain rfl : j = k := (List.Nodup.getElem_inj_iff (hdiffer.of_map _)).mp (hcj.trans hck.symm)
    exact hj

/-- A plan for a family. -/
def familyPlan : Flow.Choice := { id := "family", label := "Family plan" }

/-- A plan for one; its label is part of that of the other plan. -/
def singlePlan : Flow.Choice := { id := "single", label := "Plan" }

/-- A menu of the two plans. -/
def planMenu : Flow.Menu := { options := [familyPlan, singlePlan] }

/-- A node that asks for a plan. -/
def plans : Flow.Node := { id := "plans", block := .menu planMenu }

/-- A flow that asks for a plan. -/
def planning : Setting :=
  ⟨{ id := "planning", nodes := [{ id := "start", block := .start {} }, plans]
     edges := [{ source := "start", target := "plans" }] }, {}, {}⟩

/-- A session of someone who is asked for a plan. -/
def chooser : Session := { payer with flowId := "planning", vars := [] }

theorem planMenu_labels : (planMenu.options.map fun c => Text.lower (Text.strip c.label)).Nodup ∧
    (∀ c ∈ planMenu.options, Text.strip c.label ≠ "") ∧
    ∀ c ∈ planMenu.options, Text.isDigitText (Text.strip c.label) = false := by
  decide +kernel

/-- Both plans are picked by their numbers, and the first by its label. -/
theorem menu_selects_plans :
    ((planMenu.options.map fun c => Text.lower (Text.strip c.label)).Nodup ∧
      (∀ c ∈ planMenu.options, Text.strip c.label ≠ "") ∧
      ∀ c ∈ planMenu.options, Text.isDigitText (Text.strip c.label) = false) ∧
    Picks planning plans planMenu chooser "1" familyPlan ∧
      Picks planning plans planMenu chooser "2" singlePlan ∧
      Picks planning plans planMenu chooser "Family plan" familyPlan := by
  obtain ⟨hdiffer, hblank, hdigits⟩ := planMenu_labels
  obtain ⟨⟨lines, -, -, hnumbers⟩, hlabels⟩ :=
    @menu_selects planning plans chooser planMenu _ rfl (Template.fill_nil _) hdiffer hblank hdigits
  refine ⟨planMenu_labels, (hnumbers 0 familyPlan rfl).2 (by decide),
    (hnumbers 1 singlePlan rfl).2 (by decide), ?_⟩
  exact (hlabels rfl 0 familyPlan rfl).2.mpr
    ⟨rfl, by decide +kernel, fun i _ hi => absurd hi (Nat.not_lt_zero i)⟩

/-- The label of the second plan picks the first, though the labels are different, not blank and no
numbers. -/
theorem menu_option_shadowed :
    ((planMenu.options.map fun c => Text.lower (Text.strip c.label)).Nodup ∧
      (∀ c ∈ planMenu.options, Text.strip c.label ≠ "") ∧
      ∀ c ∈ planMenu.options, Text.isDigitText (Text.strip c.label) = false) ∧
    planMenu.allowText = true ∧ planMenu.options[1]? = some singlePlan ∧
      ¬ Picks planning plans planMenu chooser singlePlan.label singlePlan ∧
      Picks planning plans planMenu chooser singlePlan.label familyPlan := by
  have hfirst : Picks planning plans planMenu chooser singlePlan.label familyPlan :=
    (picks_text_iff rfl (Template.fill_nil _) rfl (by decide) (by decide)).mpr
      (List.find?_cons_of_pos (by decide +kernel))
  refine ⟨planMenu_labels, rfl, rfl, fun h => ?_, hfirst⟩
  have heq := h.unique hfirst
  simp [singlePlan, familyPlan] at heq

end Parley.Step
