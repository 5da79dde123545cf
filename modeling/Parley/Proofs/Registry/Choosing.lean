import Parley.Proofs.Flow.FirstMatch
import Parley.Proofs.Registry.Books
import Parley.Proofs.Text.Keywords

/-!
# The flow that is chosen for a message

For the text of a message the registry chooses among the active flows, in the order in which they
are published: the first with a keyword in the text; else the first default; else the first of a
last resort (`Chosen`).  The last resort is meant to be the flows that no keyword triggers.  It is
the flows that have no keyword, and a start node that is triggered by keyword may have none: such a
flow, which no text triggers, is chosen where no other is (`Overlooks`).

Publishing a flow leaves the others where they are: one that is new comes last, one that is replaced
keeps its place.
-/

namespace Parley.Registry

open Parley.Flow (IsFirst)
open Text (lower)

variable {r : Registry} {fs : List Flow} {f : Flow} {text word : String} {p last : Flow → Prop}
  {o : Option Flow}

/-! ### The rule -/

/-- A start node of the flow is triggered by keyword, and these are the keywords. -/
def Triggered (f : Flow) (words : List String) : Prop :=
  ∃ n ∈ f.nodes, ∃ d : Flow.Start, n.block = .start d ∧ d.triggerType = "keyword" ∧
    d.keywords = words

/-- The flow is one that keywords trigger. -/
def IsTriggered (f : Flow) : Prop := ∃ words, Triggered f words

/-- The flow is one that no keyword triggers, be it for want of keywords. -/
def IsWordless (f : Flow) : Prop := ∀ words, Triggered f words → words = []

/-- A keyword of the flow, not the empty one, is in the text, when both are in lower case. -/
def IsNamed (text : String) (f : Flow) : Prop :=
  ∃ words, Triggered f words ∧ ∃ word ∈ words, word ≠ "" ∧
    (lower word).toList <:+: (lower text).toList

/-- The flow is active and has the property. -/
def Offers (p : Flow → Prop) (f : Flow) : Prop := f.isActive = true ∧ p f

/-- Among the flows this one is chosen for the text, or none; with a last resort for texts that name
no flow when there is no default. -/
inductive Chosen (fs : List Flow) (text : String) (last : Flow → Prop) : Option Flow → Prop where
  | named {f : Flow} (h : IsFirst (Offers (IsNamed text)) fs f) : Chosen fs text last (some f)
  | standard {f : Flow} (hnamed : ∀ g ∈ fs, ¬ Offers (IsNamed text) g)
      (h : IsFirst (Offers (·.isDefault = true)) fs f) : Chosen fs text last (some f)
  | resort {f : Flow} (hnamed : ∀ g ∈ fs, ¬ Offers (IsNamed text) g)
      (hstandard : ∀ g ∈ fs, ¬ Offers (·.isDefault = true) g) (h : IsFirst (Offers last) fs f) :
      Chosen fs text last (some f)
  | nothing (hnamed : ∀ g ∈ fs, ¬ Offers (IsNamed text) g)
      (hstandard : ∀ g ∈ fs, ¬ Offers (·.isDefault = true) g)
      (h : ∀ g ∈ fs, ¬ Offers last g) : Chosen fs text last none

/-- It is overlooked that keywords are to trigger a flow: the text names none, there is no default,
and the first flow without keywords has a start node that is triggered by keyword. -/
structure Overlooks (fs : List Flow) (text : String) : Prop where
  named : ∀ g ∈ fs, ¬ Offers (IsNamed text) g
  standard : ∀ g ∈ fs, ¬ Offers (·.isDefault = true) g
  resort : ∃ f, IsFirst (Offers IsWordless) fs f ∧ IsTriggered f

/-! ### What is looked for -/

/-- The words that start a flow are those of its start nodes that are triggered by words. -/
theorem mem_startKeywords_iff :
    word ∈ f.startKeywords ↔ ∃ words, Triggered f words ∧ word ∈ words := by
  rw [Flow.startKeywords, List.mem_flatMap]
  constructor
  · rintro ⟨n, hn, hword⟩
    split at hword
    · next d hd =>
      split at hword
      · next hkind => exact ⟨_, ⟨n, hn, d, hd, hkind, rfl⟩, hword⟩
      · cases hword
    · cases hword
  · rintro ⟨_, ⟨n, hn, d, hd, hkind, rfl⟩, hword⟩
    refine ⟨n, hn, ?_⟩
    rw [hd]
    dsimp only
    rwa [if_pos hkind]

/-- A word is in a text when it is not empty and the texts have it in lower case. -/
theorem keywordIn_iff : keywordIn (lower text) word = true ↔
    word ≠ "" ∧ (lower word).toList <:+: (lower text).toList := by
  rw [keywordIn, Bool.and_eq_true, bne_iff_ne, Text.contains, Text.occursIn_iff]

/-- A text starts a flow when it names the flow. -/
theorem any_startKeywords_iff :
    f.startKeywords.any (keywordIn (lower text)) = true ↔ IsNamed text f := by
  simp only [List.any_eq_true, mem_startKeywords_iff, keywordIn_iff, IsNamed]
  constructor
  · rintro ⟨word, ⟨words, ht, hmem⟩, hword⟩
    exact ⟨words, ht, word, hmem, hword⟩
  · rintro ⟨words, ht, word, hmem, hword⟩
    exact ⟨word, ⟨words, ht, hmem⟩, hword⟩

/-- A flow without words is wordless. -/
theorem isEmpty_startKeywords_iff : f.startKeywords.isEmpty = true ↔ IsWordless f := by
  rw [List.isEmpty_iff, List.eq_nil_iff_forall_not_mem]
  simp only [mem_startKeywords_iff, not_exists, not_and, IsWordless]
  constructor
  · exact fun h words ht => List.eq_nil_iff_forall_not_mem.mpr fun word hword =>
      h word words ht hword
  · intro h word words ht hword
    rw [h words ht] at hword
    cases hword

/-- A flow that is not triggered by keyword has no keywords. -/
theorem isWordless_of_not_isTriggered (h : ¬ IsTriggered f) :
    IsWordless f := fun words ht => absurd ⟨words, ht⟩ h

/-! ### What is found -/

variable {q : Flow → Bool}

/-- The first active flow with a property is the first that is offered with it. -/
theorem find?_active_eq_some_iff (hq : ∀ f, q f = true ↔ p f) :
    (fs.filter (·.isActive)).find? q = some f ↔ IsFirst (Offers p) fs f := by
  have hoffers (f : Flow) : f.isActive = true ∧ q f = true ↔
    Offers p f := and_congr_right fun _ => hq f
  have : DecidablePred (Offers p) := fun f => decidable_of_iff _ (hoffers f)
  rw [List.find?_filter, ← Flow.find?_eq_some_iff_isFirst]
  have hsame : (fun f : Flow =>
      decide (f.isActive = true ∧ q f = true)) = fun f => decide (Offers p f) :=
    funext fun f => decide_eq_decide.mpr (hoffers f)
  rw [hsame]

theorem find?_active_eq_none_iff (hq : ∀ f, q f = true ↔ p f) :
    (fs.filter (·.isActive)).find? q = none ↔ ∀ g ∈ fs, ¬ Offers p g := by
  rw [List.find?_eq_none]
  simp only [List.mem_filter, and_imp, hq, Offers, not_and]

/-- The search for a flow that is named needs no text to search in. -/
theorem named_eq (r : Registry) (text : String) :
    (if lower text = "" then none
      else (r.all.filter (·.isActive)).find? (·.startKeywords.any (keywordIn (lower text)))) =
      (r.all.filter (·.isActive)).find? (·.startKeywords.any (keywordIn (lower text))) := by
  split
  · next hempty =>
    refine (List.find?_eq_none.mpr fun f _ hany => ?_).symm
    obtain ⟨_, -, word, -, hne, hword⟩ := any_startKeywords_iff.mp hany
    rw [hempty] at hword
    exact Keyword.lower_ne_empty hne (String.toList_eq_nil_iff.mp (List.infix_nil.mp hword))
  · rfl

/-- **The registry chooses by its rule**, with the flows without keywords for a last resort. -/
theorem resolve_eq_iff : r.resolve text "" = o ↔ Chosen r.all text IsWordless o := by
  rw [resolve, if_pos rfl, resolveText, named_eq]
  constructor
  · rintro rfl
    -- the three searches one after the other, and the first that finds one decides
    cases hk : (r.all.filter (·.isActive)).find? (·.startKeywords.any (keywordIn (lower text))) with
    | some f => exact .named ((find?_active_eq_some_iff fun _ => any_startKeywords_iff).mp hk)
    | none =>
        replace hk := (find?_active_eq_none_iff fun _ => any_startKeywords_iff).mp hk
        rw [Option.none_or]
        cases hd : (r.all.filter (·.isActive)).find? (·.isDefault) with
        | some f => exact .standard hk ((find?_active_eq_some_iff fun _ => Iff.rfl).mp hd)
        | none =>
            replace hd := (find?_active_eq_none_iff fun _ => Iff.rfl).mp hd
            rw [Option.none_or]
            cases hl : (r.all.filter (·.isActive)).find? (·.startKeywords.isEmpty) with
            | some f => exact .resort hk hd ((find?_active_eq_some_iff fun _ =>
                isEmpty_startKeywords_iff).mp hl)
            | none => exact .nothing hk hd ((find?_active_eq_none_iff fun _ =>
                isEmpty_startKeywords_iff).mp hl)
  · intro h
    cases h with
    | named h => rw [(find?_active_eq_some_iff fun _ => any_startKeywords_iff).mpr h,
        Option.some_or, Option.some_or]
    | standard hk h =>
        rw [(find?_active_eq_none_iff fun _ => any_startKeywords_iff).mpr hk, Option.none_or,
          (find?_active_eq_some_iff fun _ => Iff.rfl).mpr h, Option.some_or]
    | resort hk hd h =>
        rw [(find?_active_eq_none_iff fun _ => any_startKeywords_iff).mpr hk, Option.none_or,
          (find?_active_eq_none_iff fun _ => Iff.rfl).mpr hd, Option.none_or]
        exact (find?_active_eq_some_iff fun _ => isEmpty_startKeywords_iff).mpr h
    | nothing hk hd h =>
        rw [(find?_active_eq_none_iff fun _ => any_startKeywords_iff).mpr hk, Option.none_or,
          (find?_active_eq_none_iff fun _ => Iff.rfl).mpr hd, Option.none_or]
        exact (find?_active_eq_none_iff fun _ => isEmpty_startKeywords_iff).mpr h

theorem offers_of_isFirst (h : IsFirst (Offers p) fs f) : f ∈ fs ∧ Offers p f := by
  obtain ⟨before, after, rfl, hoffers, -⟩ := h
  exact ⟨List.mem_append_right _ List.mem_cons_self, hoffers⟩

/-- There is one first wordless flow. -/
theorem isFirst_isWordless_unique {g : Flow} (hf : IsFirst (Offers IsWordless) fs f)
    (hg : IsFirst (Offers IsWordless) fs g) : f = g := by
  have hfound := (find?_active_eq_some_iff fun _ => isEmpty_startKeywords_iff).mpr hf
  exact Option.some.inj (hfound.symm.trans
    ((find?_active_eq_some_iff fun _ => isEmpty_startKeywords_iff).mpr hg))

/-- Only active flows are chosen. -/
theorem Chosen.isActive (h : Chosen fs text last (some f)) : f ∈ fs ∧ f.isActive = true := by
  cases h with
  | named h | standard _ h | resort _ _ h =>
      obtain ⟨hmem, hactive, -⟩ := offers_of_isFirst h
      exact ⟨hmem, hactive⟩

/-- **Keeping to the flows that no keyword triggers**: the choice is the same, unless one is
overlooked that keywords are to trigger. -/
theorem Chosen.untriggered_iff (h : Chosen fs text IsWordless o) :
    Chosen fs text (fun f => ¬ IsTriggered f) o ↔ ¬ Overlooks fs text := by
  constructor
  · rintro h' ⟨hnamed, hstandard, g, hg, htriggered⟩
    have hnot {p : Flow → Prop} {f : Flow} (hp : ∀ g ∈ fs, ¬ Offers p g) :
        ¬ IsFirst (Offers p) fs f := fun h =>
      hp f (offers_of_isFirst h).1 (offers_of_isFirst h).2
    cases h with
    | named h => exact hnot hnamed h
    | standard _ h => exact hnot hstandard h
    | nothing _ _ h => exact hnot h hg
    | resort _ _ h =>
        -- both are last resorts, so they are one flow, and it is triggered
        cases h' with
        | named h => exact hnot hnamed h
        | standard _ h => exact hnot hstandard h
        | resort _ _ huntriggered =>
            obtain rfl := isFirst_isWordless_unique h hg
            exact (offers_of_isFirst huntriggered).2.2 htriggered
  · intro hover
    cases h with
    | named h => exact .named h
    | standard hk h => exact .standard hk h
    | @resort f hk hd h =>
        obtain ⟨before, after, rfl, hf, hbefore⟩ := id h
        have huntriggered : ¬ IsTriggered f := fun ht => hover ⟨hk, hd, f, h, ht⟩
        refine .resort hk hd ⟨before, after, rfl, ⟨hf.1, huntriggered⟩, fun g hg hoffers => ?_⟩
        exact hbefore g hg ⟨hoffers.1, isWordless_of_not_isTriggered hoffers.2⟩
    | nothing hk hd h =>
        exact .nothing hk hd fun g hg hoffers =>
          h g hg ⟨hoffers.1, isWordless_of_not_isTriggered hoffers.2⟩

/-! ### The order of the flows -/

/-- The flows that are published stay so, in their order, and new ones follow. -/
def Grows (r r' : Registry) : Prop := r.flows.names <+: r'.flows.names

/-- A registry grows when a flow is published. -/
theorem grows_publish (r : Registry) (f : Flow) : Grows r (r.publish f) := by
  change r.flows.names <+: (r.flows.put f.id f).names
  rw [Entries.names_put]
  split
  · exact List.prefix_refl _
  · exact List.prefix_append _ _

theorem grows_of_add {r' : Registry} (h : r.add f = .ok r') : Grows r r' := by
  obtain ⟨-, rfl⟩ := add_eq_ok_iff.mp h
  exact grows_publish r f

/-- A registry grows when entries are registered. -/
theorem grows_registerAll (r : Registry) (raws : List Value) : Grows r (r.registerAll raws).1 := by
  induction raws generalizing r with
  | nil => exact List.prefix_refl _
  | cons raw rest ih =>
      rw [registerAll]
      split
      · next r' f hr => exact (grows_of_add (add_of_register hr).2).trans (ih r')
      · exact ih r
      · exact List.prefix_refl _

theorem grows_of_loadFile {r' : Registry} {yaml : TextReader} {format : Format} {content : Content}
    {found : Bool} (h : r.loadFile yaml format content = .ok (r', found)) : Grows r r' := by
  rcases loadFile_cases h with rfl | ⟨f, ha⟩
  · exact List.prefix_refl _
  · exact grows_of_add ha

/-- A registry grows when a directory is loaded. -/
theorem grows_loadFiles (r : Registry) (yaml : TextReader) (files : List (String × Content)) :
    Grows r (r.loadFiles yaml files).1 := by
  induction files generalizing r with
  | nil => exact List.prefix_refl _
  | cons file rest ih =>
      obtain ⟨name, content⟩ := file
      rw [loadFiles]
      split
      · exact ih r
      · split
        · exact List.prefix_refl _
        · next hl => exact (grows_of_loadFile hl).trans (ih _)

/-- **Whatever the registry is asked for, the flows that stay keep their order**, and new ones
follow them. -/
theorem names_serve (r : Registry) (call : Call) :
    r.flows.names.filter (· ∈ (r.serve call).1.flows.names) <+: (r.serve call).1.flows.names := by
  have hgrows {r' : Registry} (h : Grows r r') :
      r.flows.names.filter (· ∈ r'.flows.names) <+: r'.flows.names := by
    rw [List.filter_eq_self.mpr fun id hid => decide_eq_true (h.subset hid)]
    exact h
  cases call with
  | publish f =>
      rw [serve]
      split
      · next hr => exact hgrows (grows_of_add hr)
      · exact hgrows (List.prefix_refl _)
  | register raw =>
      rw [serve]
      split
      · next hr => exact hgrows (grows_of_add (add_of_register hr).2)
      · exact hgrows (List.prefix_refl _)
  | registerAll raws => exact hgrows (grows_registerAll r raws)
  | load files yaml => exact hgrows (grows_loadFiles r yaml _)
  | remove id =>
      change r.flows.names.filter (· ∈ (r.flows.remove id).names) <+: (r.flows.remove id).names
      rw [Entries.names_remove]
      have hsame : r.flows.names.filter (· ∈ r.flows.names.filter (· != id)) =
          r.flows.names.filter (· != id) :=
        List.filter_congr fun other hother => Bool.eq_iff_iff.mpr (by simp [hother])
      exact ⟨[], by rw [hsame, List.append_nil]⟩

/-- A flow that is published or taken back is the only one to change. -/
theorem others_serve {call : Call} (h : call.isSingle = true ∨ ∃ id, call = .remove id) :
    ∃ id, (r.serve call).1.flows.remove id = r.flows.remove id := by
  have hpublish {r' : Registry} {f : Flow} (h : r.add f = .ok r') :
      r'.flows.remove f.id = r.flows.remove f.id := by
    obtain ⟨-, rfl⟩ := add_eq_ok_iff.mp h
    exact Entries.remove_put_self r.flows f.id f
  cases call with
  | publish f =>
      rw [serve]
      split
      · next hr => exact ⟨_, hpublish hr⟩
      · exact ⟨"", rfl⟩
  | register raw =>
      rw [serve]
      split
      · next hr => exact ⟨_, hpublish (add_of_register hr).2⟩
      · exact ⟨"", rfl⟩
  | remove id => exact ⟨id, List.filter_filter.trans (List.filter_congr fun _ _ => Bool.and_self _)⟩
  | registerAll _ | load _ _ => simp [Call.isSingle] at h

/-- **The flow that is chosen for a message.**  For every text the registry chooses by its rule,
with the flows without keywords for a last resort, and so only active flows.  That is the flow which
the rule gives with the flows that no keyword triggers for a last resort, except exactly where a
flow is overlooked that keywords are to trigger and that has none.  Whatever the registry is asked
for, the flows that stay keep their order and come before any that are new; and where one flow is
published, replaced or taken back, all others are as they were. -/
theorem chosen_untriggered_iff (r : Registry) :
    (∀ text o, r.resolve text "" = o ↔ Chosen r.all text IsWordless o) ∧
    (∀ text, Chosen r.all text (fun f => ¬ IsTriggered f) (r.resolve text "") ↔
      ¬ Overlooks r.all text) ∧
    (∀ text f, r.resolve text "" = some f → f ∈ r.all ∧ f.isActive = true) ∧
    (∀ call, r.flows.names.filter (· ∈ (r.serve call).1.flows.names) <+:
      (r.serve call).1.flows.names) ∧
    ∀ call, Call.isSingle call = true ∨ (∃ id, call = .remove id) →
      ∃ id, (r.serve call).1.flows.remove id = r.flows.remove id := by
  refine ⟨fun text o => resolve_eq_iff, fun text => ?_, fun text f h => ?_, names_serve r,
    fun call => others_serve⟩
  · exact (resolve_eq_iff.mp rfl).untriggered_iff
  · exact (resolve_eq_iff.mp h).isActive

/-- A flow that is to be triggered by keyword, for which no keywords were chosen yet. -/
def invoices : Flow :=
  { id := "invoices", nodes := [{ id := "start", block := .start { triggerType := "keyword" } }] }

theorem isWordless_invoices : IsWordless invoices := by
  rintro words ⟨n, hn, d, hd, -, rfl⟩
  obtain rfl := List.mem_singleton.mp hn
  cases hd
  rfl

/-- It is chosen for a text, though keywords are to trigger it; to take it back changes no other. -/
theorem chosen_untriggered_iff_invoices :
    ∃ r : Registry, r = serveAll {} [.publish invoices] ∧ r.resolve "bom dia" "" = some invoices ∧
      ¬ Chosen r.all "bom dia" (fun f => ¬ IsTriggered f) (some invoices) ∧
      (invoices ∈ r.all ∧ invoices.isActive = true) ∧
      ∃ id, (r.serve (.remove "invoices")).1.flows.remove id = r.flows.remove id := by
  refine ⟨_, rfl, ?_⟩
  obtain ⟨hrule, huntriggered, hactive, -, hothers⟩ :=
    chosen_untriggered_iff (serveAll {} [.publish invoices])
  have hall : (serveAll {} [.publish invoices]).all = [invoices] := rfl
  have hunnamed : ∀ g ∈ [invoices], ¬ Offers (IsNamed "bom dia") g := by
    rintro g hg ⟨-, words, hwords, word, hword, -⟩
    obtain rfl := List.mem_singleton.mp hg
    rw [isWordless_invoices words hwords] at hword
    cases hword
  have hstandard : ∀ g ∈ [invoices], ¬ Offers (·.isDefault = true) g := by
    rintro g hg ⟨-, hdefault⟩
    obtain rfl := List.mem_singleton.mp hg
    cases hdefault
  have hfirst : IsFirst (Offers IsWordless) [invoices] invoices :=
    ⟨[], [], rfl, ⟨rfl, isWordless_invoices⟩, List.forall_mem_nil _⟩
  have hover : Overlooks [invoices] "bom dia" :=
    ⟨hunnamed, hstandard, invoices, hfirst, [], _, List.mem_cons_self, _, rfl, rfl, rfl⟩
  have hchosen := (hrule "bom dia" (some invoices)).mpr (hall ▸ .resort hunnamed hstandard hfirst)
  have hrefused := mt (huntriggered "bom dia").mp (not_not_intro (hall ▸ hover))
  rw [hchosen] at hrefused
  exact ⟨hchosen, hrefused, hactive _ _ hchosen, hothers _ (.inr ⟨_, rfl⟩)⟩

end Parley.Registry
