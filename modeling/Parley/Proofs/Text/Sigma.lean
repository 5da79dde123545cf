import Mathlib.Data.List.DropRight
import Parley.Proofs.Text.Case

/-!
# Lower case of a part of a text

Only a capital sigma looks around in lower case: it becomes a final sigma where a letter with case
stands before it and none after it, marks between letters skipped (`isFinal`).  So the lower case of
a part of a text (`lowerWithin`) is the lower case of the part alone when its sigmas stand in the
text as they stand alone (`Kept`, `lower_part`).

A part keeps its sigmas in every text unless its first or its last letter is a sigma that may change
(`Exposed`, `kept_of_not_exposed`).  Then there is a text with the part in it, one letter longer, in
which that sigma and no other changes, so that the lower case of the part is nowhere in that of the
text (`Exposed.hides`).  Blanks at the ends make no difference (`Kept.strip`, `Exposed.hides`).
-/

namespace Parley.Text

/-! ### The surroundings of a sigma -/

/-- A search for the neighbouring letter skips the character. -/
def isSkipped (c : Char) : Bool := inRanges ignorableRanges c.toNat

/-- A sigma between these characters, the nearest first on both sides, is a final sigma in lower
case. -/
def isFinal (before after : List Char) : Bool := meetsCased before && !meetsCased after

variable {cs front back before before' after after' blank : List Char} {c : Char}

theorem meetsCased_cons (c : Char) (cs : List Char) :
    meetsCased (c :: cs) = if isSkipped c then meetsCased cs else inRanges casedRanges c.toNat := by
  unfold meetsCased isSkipped
  rw [List.dropWhile_cons]
  split_ifs <;> rfl

/-- Characters that are skipped are passed over. -/
theorem meetsCased_of_skipped (h : ∀ c ∈ cs, isSkipped c = true) (more : List Char) :
    meetsCased (cs ++ more) = meetsCased more := by
  induction cs with
  | nil => rfl
  | cons c rest ih =>
    rw [List.cons_append, meetsCased_cons, if_pos (h c List.mem_cons_self)]
    exact ih fun d hd => h d (List.mem_cons_of_mem _ hd)

/-- What is not skipped hides what is beyond it. -/
theorem meetsCased_of_seen (h : ∃ c ∈ cs, isSkipped c = false) (more : List Char) :
    meetsCased (cs ++ more) = meetsCased cs := by
  induction cs with
  | nil => obtain ⟨c, hc, -⟩ := h; cases hc
  | cons d rest ih =>
    rw [List.cons_append, meetsCased_cons, meetsCased_cons]
    split_ifs with hd
    · obtain ⟨c, hc, hskip⟩ := h
      rcases List.mem_cons.mp hc with rfl | hc
      · exact absurd (hd.symm.trans hskip) nofun
      · exact ih ⟨c, hc, hskip⟩
    · rfl

/-- All characters are skipped, or one is seen. -/
theorem skipped_or_seen (cs : List Char) :
    (∀ c ∈ cs, isSkipped c = true) ∨ ∃ c ∈ cs, isSkipped c = false := by
  by_cases h : ∃ c ∈ cs, isSkipped c = false
  · exact .inr h
  · exact .inl fun c hc => by
      by_contra hno
      exact h ⟨c, hc, Bool.eq_false_iff.mpr hno⟩

theorem meetsCased_eq_false (h : ∀ c ∈ cs, isSkipped c = true) : meetsCased cs = false := by
  simpa [meetsCased] using meetsCased_of_skipped h []

theorem sigma_seen : isSkipped 'Σ' = false := by decide +kernel

/-- No blank is skipped. -/
theorem not_blank_of_skipped (h : isSkipped c = true) : isBlank c = false := by
  by_contra hb
  exact absurd (h.symm.trans (uncased_of_isBlank (Bool.not_eq_false _ ▸ hb)).1) nofun

/-- A sigma hides what is beyond it. -/
theorem meetsCased_sigma (cs more more' : List Char) :
    meetsCased (cs ++ 'Σ' :: more) = meetsCased (cs ++ 'Σ' :: more') := by
  have hseen (ds : List Char) : meetsCased (cs ++ 'Σ' :: ds) = meetsCased (cs ++ ['Σ']) := by
    rw [List.append_cons]
    exact meetsCased_of_seen ⟨'Σ', by simp, sigma_seen⟩ ds
  rw [hseen more, hseen more']

/-! ### Lower case in a context -/

/-- The lower case of a character between others. -/
def lowerAt (before : List Char) (c : Char) (after : List Char) : List Char :=
  if c = 'Σ' then if isFinal before after then ['ς'] else ['σ']
  else if c = 'İ' then ['i', '\u0307']
  else [lowerChar c]

/-- The lower case of `cs` between `before`, the nearest first, and `after`. -/
def lowerWithin (before after : List Char) : List Char → List Char
  | [] => []
  | c :: rest => lowerAt before c (rest ++ after) ++ lowerWithin (c :: before) after rest

theorem lowerFrom_cons (before : List Char) (c : Char) (rest : List Char) :
    lowerFrom before (c :: rest) = lowerAt before c rest ++ lowerFrom (c :: before) rest := rfl

/-- A text is lowered part by part, each with the others around it. -/
theorem lowerFrom_append (before cs rest : List Char) :
    lowerFrom before (cs ++ rest) = lowerWithin before rest cs ++
      lowerFrom (cs.reverse ++ before) rest := by
  induction cs generalizing before with
  | nil => rfl
  | cons c cs ih =>
    rw [List.cons_append, lowerFrom_cons, ih, lowerWithin, List.append_assoc, List.reverse_cons,
      List.append_assoc]
    rfl

theorem lowerWithin_nil (before cs : List Char) :
    lowerWithin before [] cs = lowerFrom before cs := by
  simpa [lowerFrom] using (lowerFrom_append before cs []).symm

/-- No character is lowered to nothing. -/
theorem lowerAt_ne_nil (before : List Char) (c : Char) (after : List Char) :
    lowerAt before c after ≠ [] := by
  unfold lowerAt
  split_ifs <;> exact List.cons_ne_nil _ _

/-- The context of a part matters at its sigmas only. -/
theorem lowerWithin_congr
    (h : ∀ front back, cs = front ++ 'Σ' :: back → isFinal (front.reverse ++ before)
      (back ++ after) = isFinal (front.reverse ++ before') (back ++ after')) :
    lowerWithin before after cs = lowerWithin before' after' cs := by
  induction cs generalizing before before' with
  | nil => rfl
  | cons c rest ih =>
    have hhere : lowerAt before c (rest ++ after) = lowerAt before' c (rest ++ after') := by
      by_cases hc : c = 'Σ'
      · subst hc
        have hsame : isFinal before (rest ++ after) = isFinal before' (rest ++ after') :=
          h [] rest rfl
        rw [lowerAt, lowerAt, hsame]
      · rw [lowerAt, lowerAt, if_neg hc, if_neg hc]
    have hrest := @ih (c :: before) (c :: before') fun front back hsplit => by
      simpa using h (c :: front) back (by rw [hsplit, List.cons_append])
    rw [lowerWithin, lowerWithin, hhere, hrest]

/-! ### Parts that keep their sigmas -/

/-- Between `before`, the nearest first, and `after`, every sigma of the part is what it is in the
part alone. -/
def Kept (before after cs : List Char) : Prop :=
  ∀ front back, cs = front ++ 'Σ' :: back →
    isFinal (front.reverse ++ before) (back ++ after) = isFinal front.reverse back

/-- A part that is kept is lowered as it is alone. -/
theorem Kept.lowerWithin_eq (h : Kept before after cs) :
    lowerWithin before after cs = lowerFrom [] cs := by
  rw [← lowerWithin_nil]
  exact lowerWithin_congr fun front back hsplit => by simpa using h front back hsplit

/-- **A part that keeps its sigmas is a part in lower case, too.** -/
theorem Kept.lower_part {pre post : List Char} (h : Kept pre.reverse post cs) :
    lowerFrom [] cs <:+: lowerFrom [] (pre ++ cs ++ post) := by
  have hsuffix := suffix_lowerFrom [] pre (cs ++ post)
  rw [List.append_nil, lowerFrom_append, h.lowerWithin_eq] at hsuffix
  rw [List.append_assoc]
  exact (List.prefix_append _ _).isInfix.trans hsuffix.isInfix

/-- The first or the last letter with case is a sigma that may change with what stands around the
text. -/
inductive Exposed : List Char → Prop where
  /-- It is no final sigma, but is one behind a letter. -/
  | atStart {front back : List Char} (hf : ∀ c ∈ front, isSkipped c = true)
      (hb : meetsCased back = false) :
      Exposed (front ++ 'Σ' :: back)
  /-- It is a final sigma, but is none before a letter. -/
  | atEnd {front back : List Char} (hf : meetsCased front.reverse = true)
      (hb : ∀ c ∈ back, isSkipped c = true) :
      Exposed (front ++ 'Σ' :: back)

/-- **A text without exposed sigmas keeps them wherever it stands.** -/
theorem kept_of_not_exposed (h : ¬ Exposed cs) (before after : List Char) :
    Kept before after cs := by
  rintro front back rfl
  unfold isFinal
  rcases skipped_or_seen front with hfront | hfront
  · have hb : meetsCased back = true := by
      by_contra hno
      exact h (.atStart hfront (Bool.eq_false_iff.mpr hno))
    have hback := (skipped_or_seen back).resolve_left fun hall => by
      rw [meetsCased_eq_false hall] at hb
      cases hb
    rw [meetsCased_of_seen hback, hb, Bool.not_true, Bool.and_false, Bool.and_false]
  · rw [meetsCased_of_seen (by simpa using hfront)]
    cases hcased : meetsCased front.reverse with
    | false => rfl
    | true =>
        have hback := (skipped_or_seen back).resolve_left fun hall => h (.atEnd hcased hall)
        rw [meetsCased_of_seen hback]

/-! ### Exposed sigmas -/

/-- Without a sigma the context makes no difference. -/
theorem lowerWithin_of_skipped (h : ∀ c ∈ cs, isSkipped c = true) :
    lowerWithin before after cs = lowerWithin before' after' cs := by
  refine lowerWithin_congr fun front back hsplit => ?_
  have hsigma := h 'Σ' (by simp [hsplit])
  exact absurd (hsigma.symm.trans sigma_seen) nofun

/-- A text is no part of what it becomes when one of its characters is changed and others are added,
if the character is none of the added ones. -/
theorem not_infix_of_changed {x y e e' : List Char} {a b : Char} (hab : b ≠ a) (he : a ∉ e)
    (he' : a ∉ e') :
    ¬ x ++ a :: y <:+: e ++ (x ++ b :: y) ++ e' := by
  intro h
  have hcount := h.sublist.count_le a
  simp only [List.count_append, List.count_cons_self, List.count_cons_of_ne hab,
    List.count_eq_zero.mpr he, List.count_eq_zero.mpr he'] at hcount
  omega

/-- A capital sigma is lowered to the final letter at the end of a word. -/
theorem lowerAt_sigma {v : Bool} (h : isFinal before after = v) :
    lowerAt before 'Σ' after = if v then ['ς'] else ['σ'] := by
  rw [lowerAt, if_pos rfl, h]

theorem lowerAt_alpha (before after : List Char) : lowerAt before 'Α' after = ['α'] := by
  have hchar : lowerChar 'Α' = 'α' := by decide +kernel
  rw [lowerAt, if_neg (by decide), if_neg (by decide), hchar]

/-- A sigma at the end changes before a letter. -/
theorem not_infix_atEnd (hf : meetsCased front.reverse = true)
    (hb : ∀ c ∈ back, isSkipped c = true) :
    ¬ lowerFrom [] (front ++ 'Σ' :: back) <:+: lowerFrom [] (front ++ 'Σ' :: back ++ ['Α']) := by
  have halone : isFinal front.reverse back = true := by
    rw [isFinal, hf, meetsCased_eq_false hb]; rfl
  have hthere : isFinal front.reverse (back ++ ['Α']) = false := by
    have hletter : meetsCased ['Α'] = true := by decide +kernel
    rw [isFinal, meetsCased_of_skipped hb, hletter, Bool.not_true, Bool.and_false]
  have hfront : lowerWithin [] ('Σ' :: (back ++ ['Α'])) front =
      lowerWithin [] ('Σ' :: back) front :=
    lowerWithin_congr fun x y _ => by rw [isFinal, isFinal, meetsCased_sigma y _ back]
  have hback (b : List Char) : lowerWithin b ['Α'] back = lowerFrom b back := by
    rw [← lowerWithin_nil]
    exact lowerWithin_of_skipped hb
  rw [List.append_assoc, lowerFrom_append, lowerFrom_append, List.cons_append, lowerFrom_cons,
    lowerFrom_cons, List.append_nil, lowerAt_sigma halone, lowerAt_sigma hthere, hfront,
    lowerFrom_append, hback, lowerFrom_cons, lowerAt_alpha, lowerFrom]
  simpa using @not_infix_of_changed (lowerWithin [] ('Σ' :: back) front)
    (lowerFrom ('Σ' :: front.reverse) back) []
    ['α'] 'ς' 'σ' (by decide) (by decide) (by decide)

/-- A sigma at the start changes behind a letter. -/
theorem not_infix_atStart (hf : ∀ c ∈ front, isSkipped c = true) (hb : meetsCased back = false) :
    ¬ lowerFrom [] (front ++ 'Σ' :: back) <:+: lowerFrom [] ('Α' :: (front ++ 'Σ' :: back)) := by
  have hrev : ∀ c ∈ front.reverse, isSkipped c = true := fun c hc => hf c (List.mem_reverse.mp hc)
  have halone : isFinal front.reverse back = false := by
    rw [isFinal, meetsCased_eq_false hrev, Bool.false_and]
  have hthere : isFinal (front.reverse ++ ['Α']) back = true := by
    have hletter : meetsCased ['Α'] = true := by decide +kernel
    rw [isFinal, meetsCased_of_skipped hrev, hletter, hb]
    rfl
  have hfront : lowerWithin ['Α'] ('Σ' :: back) front = lowerWithin [] ('Σ' :: back) front :=
    lowerWithin_of_skipped hf
  have hback : lowerFrom ('Σ' :: (front.reverse ++ ['Α'])) back =
      lowerFrom ('Σ' :: front.reverse) back := by
    rw [← lowerWithin_nil, ← lowerWithin_nil]
    exact lowerWithin_congr fun x y _ =>
      by rw [isFinal, isFinal, meetsCased_sigma x.reverse _ front.reverse]
  rw [lowerFrom_cons, lowerFrom_append, lowerFrom_append, lowerFrom_cons, lowerFrom_cons,
    List.append_nil, lowerAt_alpha, lowerAt_sigma halone, lowerAt_sigma hthere, hfront, hback]
  simpa using @not_infix_of_changed (lowerWithin [] ('Σ' :: back) front)
    (lowerFrom ('Σ' :: front.reverse) back) ['α']
    [] 'σ' 'ς' (by decide) (by decide) (by decide)

/-! ### Blanks at the ends -/

section

variable {p : Char → Bool}

/-- A text is stripped from both ends. -/
theorem stripBy_eq (cs : List Char) : stripBy p cs = (cs.dropWhile p).rdropWhile p := rfl

theorem reverse_around (cs : List Char) :
    (cs.dropWhile p).reverse ++ (cs.takeWhile p).reverse = cs.reverse := by
  rw [← List.reverse_append, List.takeWhile_append_dropWhile]

/-- A stripped text does not begin with what is stripped. -/
theorem head_stripBy (h : stripBy p cs ≠ []) : p ((stripBy p cs).head h) = false := by
  have hpre : stripBy p cs <+: cs.dropWhile p := List.rdropWhile_prefix p _
  rw [hpre.head h]
  exact List.head_dropWhile_not p _

/-- A stripped text does not end with what is stripped. -/
theorem getLast_stripBy (h : stripBy p cs ≠ []) : p ((stripBy p cs).getLast h) = false :=
  Bool.eq_false_iff.mpr (List.rdropWhile_last_not p _ h)

theorem dropWhile_append_stop {c : Char} (h : p c = false) (cs rest : List Char) :
    (cs ++ c :: rest).dropWhile p = cs.dropWhile p ++ c :: rest := by
  induction cs with
  | nil => exact List.dropWhile_cons_of_neg (by simp [h])
  | cons d cs ih =>
    rw [List.cons_append, List.dropWhile_cons, List.dropWhile_cons, ih]
    split_ifs <;> rfl

/-- What begins and ends with other characters is left whole between what is left of the ends. -/
theorem stripBy_around {core : List Char} (h : core ≠ []) (hfirst : p (core.head h) = false)
    (hlast : p (core.getLast h) = false) (x y : List Char) :
    stripBy p (x ++ core ++ y) = x.dropWhile p ++ core ++ y.rdropWhile p := by
  have hbegin : (x ++ core ++ y).dropWhile p = x.dropWhile p ++ core ++ y := by
    have hdrop := dropWhile_append_stop hfirst x (core.tail ++ y)
    rwa [← List.cons_append, List.cons_head_tail, ← List.append_assoc, ← List.append_assoc] at hdrop
  have hend (z : List Char) : (z ++ core ++ y).rdropWhile p = z ++ core ++ y.rdropWhile p := by
    have hdrop := dropWhile_append_stop hlast y.reverse (core.dropLast.reverse ++ z.reverse)
    have hcore : core.getLast h :: core.dropLast.reverse = core.reverse := by
      rw [← List.reverse_concat, List.dropLast_append_getLast]
    rw [← List.cons_append, hcore] at hdrop
    unfold List.rdropWhile
    rw [List.reverse_append, List.reverse_append, hdrop]
    simp
  rw [stripBy_eq, hbegin, hend]

end

/-- Blanks at the end of a text do not matter for the end of a word. -/
theorem meetsCased_rdropWhile (cs : List Char) :
    meetsCased (cs.rdropWhile isBlank) = meetsCased cs := by
  conv_rhs => rw [← @List.rdropWhile_append_rtakeWhile _ isBlank cs]
  exact (meetsCased_append (fun c hc => List.mem_rtakeWhile_imp hc) _).symm

/-- Blanks at the start of a text do not matter for the end of a word. -/
theorem meetsCased_dropWhile (cs : List Char) :
    meetsCased (cs.dropWhile isBlank).reverse = meetsCased cs.reverse := by
  rw [← reverse_around (p := isBlank) cs]
  exact (meetsCased_append (fun c hc => List.mem_takeWhile_imp (List.mem_reverse.mp hc)) _).symm

/-- Blanks around a word do not matter for its last letter. -/
theorem isFinal_blank {blank' : List Char} (hb : ∀ c ∈ blank, isBlank c = true)
    (hb' : ∀ c ∈ blank', isBlank c = true) :
    isFinal (before ++ blank) (after ++ blank') = isFinal before after := by
  rw [isFinal, isFinal, meetsCased_append hb, meetsCased_append hb']

/-- A part that keeps its sigmas keeps them without the blanks at the ends, of its own and of the
text. -/
theorem Kept.strip {pre post : List Char} (h : Kept pre.reverse post cs)
    (hne : stripBy isBlank cs ≠ []) :
    ∃ pre' post', stripBy isBlank (pre ++ cs ++ post) = pre' ++ stripBy isBlank cs ++ post' ∧
      Kept pre'.reverse post' (stripBy isBlank cs) := by
  obtain ⟨b, b', hb, hb', hsplit⟩ := exists_around_stripBy isBlank cs
  refine ⟨(pre ++ b).dropWhile isBlank, (b' ++ post).rdropWhile isBlank, ?_,
    fun front back hcore => ?_⟩
  · have htext : pre ++ cs ++ post = pre ++ b ++ stripBy isBlank cs ++ (b' ++ post) := by
      conv_lhs => rw [← hsplit]
      simp only [List.append_assoc]
    rw [htext, stripBy_around hne (head_stripBy hne) (getLast_stripBy hne)]
  · have hkept := h (b ++ front) (back ++ b') (by rw [← hsplit, hcore]; simp)
    have hbefore : (b ++ front).reverse ++ pre.reverse =
        front.reverse ++ ((pre ++ b).dropWhile isBlank).reverse ++
            ((pre ++ b).takeWhile isBlank).reverse := by
      rw [List.append_assoc, reverse_around]
      simp
    have hafter : back ++ b' ++ post =
        back ++ (b' ++ post).rdropWhile isBlank ++ (b' ++ post).rtakeWhile isBlank := by
      rw [List.append_assoc, List.append_assoc, List.rdropWhile_append_rtakeWhile]
    have hthere := @isFinal_blank (front.reverse ++ ((pre ++ b).dropWhile isBlank).reverse)
      (back ++ (b' ++ post).rdropWhile isBlank) ((pre ++ b).takeWhile isBlank).reverse
      ((b' ++ post).rtakeWhile isBlank)
        (fun c hc => List.mem_takeWhile_imp (List.mem_reverse.mp hc))
      fun c hc => List.mem_rtakeWhile_imp hc
    have halone := @isFinal_blank front.reverse back b.reverse b'
      (fun c hc => hb c (List.mem_reverse.mp hc)) hb'
    rw [hbefore, hafter, hthere, List.reverse_append, halone] at hkept
    exact hkept

/-- **A text with an exposed sigma is hidden in a longer text.**  The text is a part of the longer
one, but in lower case it is none, be it with the blanks at the ends or without them. -/
theorem Exposed.hides (h : Exposed cs) : ∃ ds, cs <:+: ds ∧ ¬ lowerFrom [] cs <:+: lowerFrom [] ds ∧
    ¬ lowerFrom [] (stripBy isBlank cs) <:+: lowerFrom [] (stripBy isBlank ds) := by
  have hsigma : isBlank 'Σ' = false := by decide
  have halpha : isBlank 'Α' = false := by decide
  cases h with
  | @atEnd front back hf hb =>
      -- an alpha behind the text takes the final form from its sigma
      have hsolid : ∀ c ∈ 'Σ' :: back, isBlank c = false :=
        List.forall_mem_cons.mpr ⟨hsigma, fun c hc => not_blank_of_skipped (hb c hc)⟩
      have hfront : meetsCased (front.dropWhile isBlank).reverse = true := by
        rw [meetsCased_dropWhile, hf]
      have hstrip : stripBy isBlank (front ++ 'Σ' :: back) = front.dropWhile isBlank ++
          'Σ' :: back := by
        simpa using stripBy_around (List.cons_ne_nil 'Σ' back) hsigma
          (hsolid _ (List.getLast_mem _)) front []
      have hstrip' : stripBy isBlank (front ++ 'Σ' :: back ++ ['Α']) =
          front.dropWhile isBlank ++ 'Σ' :: back ++ ['Α'] := by
        simpa using stripBy_around (List.cons_ne_nil 'Σ' (back ++ ['Α'])) hsigma
          (by simpa using halpha) front []
      refine ⟨front ++ 'Σ' :: back ++ ['Α'], (List.prefix_append _ _).isInfix,
        not_infix_atEnd hf hb, ?_⟩
      rw [hstrip, hstrip']
      exact not_infix_atEnd hfront hb
  | @atStart front back hf hb =>
      -- an alpha in front of the text gives its sigma the final form
      have hsolid : ∀ c ∈ front ++ ['Σ'], isBlank c = false :=
        List.forall_mem_append.mpr ⟨fun c hc => not_blank_of_skipped (hf c hc),
          by simpa using hsigma⟩
      have hback : meetsCased (back.rdropWhile isBlank) = false := by rw [meetsCased_rdropWhile, hb]
      have hne : front ++ ['Σ'] ≠ [] := by simp
      have hstrip : stripBy isBlank (front ++ 'Σ' :: back) = front ++
          'Σ' :: back.rdropWhile isBlank := by
        simpa using stripBy_around hne (hsolid _ (List.head_mem _))
          (hsolid _ (List.getLast_mem _)) [] back
      have hstrip' : stripBy isBlank ('Α' :: (front ++ 'Σ' :: back)) =
          'Α' :: (front ++ 'Σ' :: back.rdropWhile isBlank) := by
        simpa using stripBy_around (List.cons_ne_nil 'Α' (front ++ ['Σ'])) halpha
          (by simpa using hsigma) [] back
      refine ⟨'Α' :: (front ++ 'Σ' :: back), (List.suffix_cons _ _).isInfix,
        not_infix_atStart hf hb, ?_⟩
      rw [hstrip, hstrip']
      exact not_infix_atStart hf hback

end Parley.Text
