import Mathlib.Data.List.TakeWhile
import Parley.Text.Classes
import Parley.Text.Case

/-!
# Lower case between blanks

What a letter becomes in lower case depends on the letters around it.  A blank is no letter with
case, and a search for one stops at a blank (`uncased_of_isBlank`), so the blanks at the ends of a
text make no difference to what stands between them.  Without them, and in lower case, a text occurs
in the whole text in lower case (`contains_lower_strip`).
-/

namespace Parley.Text

/-! ### Parts of texts -/

theorem occursIn_iff {part cs : List Char} : occursIn part cs = true ↔ part <:+: cs := by
  induction cs with
  | nil => simp [occursIn, List.isPrefixOf_iff_prefix]
  | cons c rest ih =>
    rw [occursIn, Bool.or_eq_true, ih, List.isPrefixOf_iff_prefix, List.infix_cons_iff]

/-- What is left between the characters of a class. -/
theorem exists_around_stripBy (p : Char → Bool) (cs : List Char) :
    ∃ before after, (∀ c ∈ before, p c = true) ∧ (∀ c ∈ after, p c = true) ∧
      before ++ stripBy p cs ++ after = cs := by
  refine ⟨cs.takeWhile p, ((cs.dropWhile p).reverse.takeWhile p).reverse,
    fun c hc => List.mem_takeWhile_imp hc, fun c hc =>
      List.mem_takeWhile_imp (List.mem_reverse.mp hc), ?_⟩
  rw [stripBy, List.append_assoc, ← List.reverse_append, List.takeWhile_append_dropWhile,
    List.reverse_reverse, List.takeWhile_append_dropWhile]

/-- A text without characters of the class stays as it is. -/
theorem stripBy_eq_self {p : Char → Bool} {cs : List Char} (h : ∀ c ∈ cs, p c = false) :
    stripBy p cs = cs := by
  have hdrop (ds : List Char) (hd : ∀ c ∈ ds, p c = false) : ds.dropWhile p = ds := by
    cases ds with
    | nil => rfl
    | cons d rest => exact List.dropWhile_cons_of_neg (by simp [hd d List.mem_cons_self])
  rw [stripBy, hdrop cs h, hdrop _ fun c hc => h c (List.mem_reverse.mp hc), List.reverse_reverse]

/-! ### Letters with case and blanks -/

/-- The code points of blanks. -/
def blanks : List Nat :=
  [9, 10, 11, 12, 13, 0x1c, 0x1d, 0x1e, 0x1f, 0x20, 0x85, 0xa0, 0x1680, 0x2000, 0x2001, 0x2002,
    0x2003, 0x2004, 0x2005, 0x2006, 0x2007, 0x2008, 0x2009, 0x200a, 0x2028, 0x2029, 0x202f,
    0x205f, 0x3000]

theorem mem_blanks {c : Char} (h : isBlank c = true) : c.toNat ∈ blanks := by
  simp only [isBlank, Bool.or_eq_true, Bool.and_eq_true, decide_eq_true_eq, beq_iff_eq] at h
  simp only [blanks, List.mem_cons, List.not_mem_nil, or_false]
  omega

/-- A blank is not skipped, and is no letter with case. -/
theorem uncased_of_isBlank {c : Char} (h : isBlank c = true) :
    inRanges ignorableRanges c.toNat = false ∧ inRanges casedRanges c.toNat = false :=
  (by decide +kernel :
    ∀ n ∈ blanks, inRanges ignorableRanges n = false ∧ inRanges casedRanges n = false) _
      (mem_blanks h)

variable {blank : List Char}

/-- Nothing beyond blanks is seen. -/
theorem meetsCased_append (h : ∀ c ∈ blank, isBlank c = true) (cs : List Char) :
    meetsCased (cs ++ blank) = meetsCased cs := by
  induction cs with
  | nil =>
    cases blank with
    | nil => rfl
    | cons b rest =>
      obtain ⟨hskip, hcased⟩ := uncased_of_isBlank (h b List.mem_cons_self)
      simp [meetsCased, hskip, hcased]
  | cons c rest ih =>
    unfold meetsCased at ih ⊢
    rw [List.cons_append, List.dropWhile_cons, List.dropWhile_cons]
    by_cases hskip : inRanges ignorableRanges c.toNat = true
    · simpa only [if_pos hskip] using ih
    · simp only [if_neg hskip]

/-- Lower case between blanks is lower case. -/
theorem lowerFrom_between {after : List Char} (hb : ∀ c ∈ blank, isBlank c = true)
    (ha : ∀ c ∈ after, isBlank c = true) (cs before : List Char) :
    lowerFrom (before ++ blank) (cs ++ after) =
      lowerFrom before cs ++ lowerFrom (cs.reverse ++ before ++ blank) after := by
  induction cs generalizing before with
  | nil => rfl
  | cons c rest ih =>
    rw [List.cons_append, lowerFrom, lowerFrom, meetsCased_append hb, meetsCased_append ha,
      ← List.cons_append, ih, List.append_assoc]
    simp

/-- The lower case of a text ends with that of its end, read after its beginning. -/
theorem suffix_lowerFrom (before first cs : List Char) :
    lowerFrom (first.reverse ++ before) cs <:+ lowerFrom before (first ++ cs) := by
  induction first generalizing before with
  | nil => exact List.suffix_refl _
  | cons c rest ih =>
    have hrest := ih (c :: before)
    rw [List.cons_append, lowerFrom, List.reverse_cons, List.append_assoc]
    exact hrest.trans (List.suffix_append _ _)

/-- **A text without its blanks occurs in it, both in lower case.** -/
theorem contains_lower_strip (t : String) : contains (lower (strip t)) (lower t) = true := by
  obtain ⟨blank, after, hb, ha, hsplit⟩ := exists_around_stripBy isBlank t.toList
  have hblank : ∀ c ∈ blank.reverse, isBlank c = true := fun c hc => hb c (List.mem_reverse.mp hc)
  have hmid := lowerFrom_between hblank ha (stripBy isBlank t.toList) []
  have hinfix :
      lowerFrom [] (stripBy isBlank t.toList) <:+: lowerFrom blank.reverse
          (stripBy isBlank t.toList ++ after) := by
    rw [List.nil_append] at hmid
    rw [hmid]
    exact (List.prefix_append _ _).isInfix
  have hsuffix := suffix_lowerFrom [] blank (stripBy isBlank t.toList ++ after)
  rw [List.append_nil, ← List.append_assoc, hsplit] at hsuffix
  rw [contains, occursIn_iff]
  simpa [lower, strip] using hinfix.trans hsuffix.isInfix

end Parley.Text
