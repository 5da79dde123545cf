import Parley.Proofs.Condition.Laws
import Parley.Proofs.Step.Saving
import Parley.Proofs.Text.Sigma
import Parley.Registry

/-!
# Keywords that occur in a message

A flow is chosen by its keywords, a welcoming assistant hands over by the words of a person and of
its sectors, and a rule looks for a text in a variable: all compare in lower case, and so should
find what is there letter by letter (`Found`).  They do wherever the sigmas of the keyword stand in
the message as they stand in the keyword, and for a keyword without exposed sigmas that is
everywhere; a keyword with an exposed sigma is missed in some message (`keyword_found`).
-/

namespace Parley.Keyword

open Text
open Program (Exchange Comes)
open Step (Setting Named Effect Reaches mentions callsForPerson goesToSector answersItself
    readMediaOr runWelcome)

variable {k m : String}

/-! ### Places that look for keywords -/

/-- The answer of a welcoming assistant to a message that was read. -/
def respond (s : Setting) (id : String) (vars : Fields) (d : Flow.Welcome) (kind : Media.Kind)
    (heard : String) (found : Named) : Step.Action Effect :=
  if d.enableSmartRouting && mentions (lower heard) d.humanHandoffTriggers then
    callsForPerson id vars d heard found
  else
    match d.sectors.find? fun sector => d.enableSmartRouting &&
        mentions (lower heard) sector.keywords with
    | some sector => goesToSector s id sector heard found
    | none => answersItself s id vars d kind heard found

/-- A message is read, and then answered. -/
theorem comes_runWelcome {s : Setting} {id : String} {vars : Fields} {d : Flow.Welcome} {a : String}
    {found : Named} {log log' : List (Exchange Step.Op Step.Op.Reply)} {r : Except Fault Effect}
    (hread : Reaches (readMediaOr s d a (.detect a)) log (.text m, found))
    (hr : Comes (respond s id vars d (.detect a) m found).run log' r) :
    Comes (runWelcome s id vars d (some a)).run (log ++ log') r :=
  Program.comes_bind_iff.mpr ⟨log, log', _, rfl, hread, hr⟩

/-- The keyword is found in the message wherever it is looked for. -/
structure Found (k m : String) : Prop where
  /-- With an active flow of that keyword, a flow with a keyword in the message is chosen. -/
  flow : ∀ r : Registry, ∀ f ∈ r.all, f.isActive = true → k ∈ f.startKeywords →
    ∃ g ∈ r.all, r.resolve m "" = some g ∧ g.isActive = true ∧
      g.startKeywords.any (Registry.keywordIn (lower m)) = true
  /-- When it is read as the message, an answer with a word for a person calls for a person. -/
  person : ∀ (s : Setting) (id : String) (vars : Fields) (d : Flow.Welcome) (a : String)
    (found : Named) log,
    d.enableSmartRouting = true → k ∈ d.humanHandoffTriggers →
    Reaches (readMediaOr s d a (.detect a)) log (.text m, found) →
    Comes (runWelcome s id vars d (some a)).run log (callsForPerson id vars d m found)
  /-- One with the word of a sector, when no person is called for, leads to a sector with a word in
  the message. -/
  sector : ∀ (s : Setting) (id : String) (vars : Fields) (d : Flow.Welcome) (a : String)
    (found : Named) log,
    d.enableSmartRouting = true → mentions (lower m) d.humanHandoffTriggers = false →
    ∀ x ∈ d.sectors, k ∈ x.keywords → Reaches (readMediaOr s d a (.detect a)) log (.text m, found) →
    ∃ y ∈ d.sectors, mentions (lower m) y.keywords = true ∧
      Comes (runWelcome s id vars d (some a)).run log (goesToSector s id y m found)
  /-- A rule that looks for the keyword in a variable with the message holds. -/
  rule : Condition.tells "contains" (.text m) (.text k) = .ok true

/-- The keyword is found in the message nowhere. -/
structure Missed (k m : String) : Prop where
  /-- Of flows without other keywords that is chosen which an empty message chooses. -/
  flow : ∀ r : Registry, (∀ f ∈ r.all, ∀ word ∈ f.startKeywords, word = k) →
    r.resolve m "" = r.resolve "" ""
  /-- An assistant without other words answers the message itself. -/
  assistant : ∀ (s : Setting) (id : String) (vars : Fields) (d : Flow.Welcome) (a : String)
    (found : Named) log log' r,
    (∀ word ∈ d.humanHandoffTriggers, word = k) → (∀ x ∈ d.sectors, ∀ word ∈ x.keywords, word = k) →
    Reaches (readMediaOr s d a (.detect a)) log (.text m, found) →
    Comes (answersItself s id vars d (.detect a) m found).run log' r →
    Comes (runWelcome s id vars d (some a)).run (log ++ log') r
  rule : Condition.tells "contains" (.text m) (.text k) = .ok false

/-! ### What decides -/

theorem tells_contains (m k : String) :
    Condition.tells "contains" (.text m) (.text k) =
      .ok (contains (lower (strip k)) (lower (strip m))) := rfl

theorem lower_ne_empty (hk : k ≠ "") : lower k ≠ "" := by
  intro hlower
  cases hcs : k.toList with
  | nil => exact hk (String.toList_eq_nil_iff.mp hcs)
  | cons c rest =>
      have hnil : lowerFrom [] k.toList = [] := by simpa [lower] using congrArg String.toList hlower
      rw [hcs, lowerFrom_cons] at hnil
      exact lowerAt_ne_nil _ _ _ (List.append_eq_nil_iff.mp hnil).1

theorem mentions_of_mem {words : List String} (hk : k ≠ "")
    (h : contains (lower k) (lower m) = true) (hmem : k ∈ words) :
    mentions (lower m) words = true :=
  List.any_eq_true.mpr ⟨k, hmem, by simp [hk, h]⟩

theorem exists_find? {α : Type} {p : α → Bool} {l : List α} {x : α} (hx : x ∈ l) (hp : p x = true) :
    ∃ y, l.find? p = some y ∧ y ∈ l ∧ p y = true := by
  obtain ⟨y, hy⟩ := Option.isSome_iff_exists.mp (List.find?_isSome.mpr ⟨x, hx, hp⟩)
  exact ⟨y, hy, List.mem_of_find?_eq_some hy, List.find?_some hy⟩

/-- A keyword that in lower case is in the message, with blanks and without, is found. -/
theorem found_of_contains (hk : k ≠ "") (h : contains (lower k) (lower m) = true)
    (hs : contains (lower (strip k)) (lower (strip m)) = true) : Found k m where
  flow r f hf hactive hmem := by
    have hm : lower m ≠ "" := by
      intro hempty
      rw [hempty, contains, occursIn_iff] at h
      exact lower_ne_empty hk (String.toList_eq_nil_iff.mp (List.infix_nil.mp h))
    have hany : f.startKeywords.any (Registry.keywordIn (lower m)) = true :=
      List.any_eq_true.mpr ⟨k, hmem, by simp [Registry.keywordIn, hk, h]⟩
    -- another flow may come first, and then it has a keyword in the text
    obtain ⟨g, hg, hmem, hword⟩ := exists_find?
      (p := fun g : Flow => g.startKeywords.any (Registry.keywordIn (lower m)))
      (List.mem_filter.mpr ⟨hf, hactive⟩) hany
    obtain ⟨hgr, hgactive⟩ := List.mem_filter.mp hmem
    refine ⟨g, hgr, ?_, hgactive, hword⟩
    rw [Registry.resolve, if_pos rfl, Registry.resolveText, if_neg hm, hg, Option.some_or,
      Option.some_or]
  person s id vars d a found log hsmart hmem hread := by
    have hrespond : respond s id vars d (.detect a) m found = callsForPerson id vars d m found := by
      rw [respond, hsmart, mentions_of_mem hk h hmem]
      rfl
    rw [← List.append_nil log]
    refine comes_runWelcome hread ?_
    rw [hrespond]
    exact .done _
  sector s id vars d a found log hsmart hperson x hx hmem hread := by
    have hx' : (d.enableSmartRouting && mentions (lower m) x.keywords) = true := by
      rw [hsmart, mentions_of_mem hk h hmem]
      rfl
    obtain ⟨y, hy, hyd, hword⟩ :=
      exists_find? (p := fun y => d.enableSmartRouting && mentions (lower m) y.keywords) hx hx'
    rw [hsmart, Bool.true_and] at hword
    have hrespond : respond s id vars d (.detect a) m found = goesToSector s id y m found := by
      rw [respond, hperson, hy, Bool.and_false]
      rfl
    refine ⟨y, hyd, hword, ?_⟩
    rw [← List.append_nil log]
    refine comes_runWelcome hread ?_
    rw [hrespond]
    exact .done _
  rule := by rw [tells_contains, hs]

/-- A keyword whose sigmas stand in the message as they stand in the keyword is found. -/
theorem found_of_kept {pre post : String} (hk : strip k ≠ "")
    (h : Kept pre.toList.reverse post.toList k.toList) :
    Found k (pre ++ k ++ post) := by
  have hcore : stripBy isBlank k.toList ≠ [] := by simpa [strip] using hk
  refine found_of_contains (fun hempty => hk (by rw [hempty]; rfl)) ?_ ?_
  · rw [contains, occursIn_iff]
    simpa [lower] using h.lower_part
  · obtain ⟨pre', post', hstrip, hkept⟩ := h.strip hcore
    have hpart := hkept.lower_part
    rw [← hstrip] at hpart
    rw [contains, occursIn_iff]
    simpa [lower, strip] using hpart

/-- A keyword without blanks at its ends is also found when the message is stripped of its blanks.
-/
theorem found_in_stripped {pre post : String} (hk : strip k ≠ "") (hkeep : strip k = k)
    (h : Kept pre.toList.reverse post.toList k.toList) : Found k (strip (pre ++ k ++ post)) := by
  have hcore : stripBy isBlank k.toList ≠ [] := by simpa [strip] using hk
  have hself : stripBy isBlank k.toList = k.toList := by
    conv_rhs => rw [← hkeep]
    simp [strip]
  obtain ⟨pre', post', hstrip, hkept⟩ := h.strip hcore
  rw [hself] at hstrip hkept
  have htext : strip (pre ++ k ++ post) = String.ofList pre' ++ k ++ String.ofList post' := by
    apply String.toList_inj.mp
    simpa [strip] using hstrip
  rw [htext]
  exact found_of_kept hk (by simpa using hkept)

/-- A keyword that in lower case is not in the message, with blanks and without, is missed. -/
theorem missed_of_not_contains (h : contains (lower k) (lower m) = false)
    (hs : contains (lower (strip k)) (lower (strip m)) = false) : Missed k m where
  flow r honly := by
    have hnone : (r.all.filter (·.isActive)).find?
        (·.startKeywords.any (Registry.keywordIn (lower m))) = none := by
      refine List.find?_eq_none.mpr fun f hf hany => ?_
      obtain ⟨word, hmem, hword⟩ := List.any_eq_true.mp hany
      rw [honly f (List.mem_of_mem_filter hf) word hmem, Registry.keywordIn, h,
        Bool.and_false] at hword
      cases hword
    rw [Registry.resolve, if_pos rfl, Registry.resolve, if_pos rfl, Registry.resolveText,
      hnone, ite_self]
    rfl
  assistant s id vars d a found log log' r hpersons hsectors hread hr := by
    have hsilent {words : List String} (honly : ∀ word ∈ words, word = k) :
        mentions (lower m) words = false :=
      List.any_eq_false.mpr fun word hmem => by simp [honly word hmem, h]
    have hrespond : respond s id vars d (.detect a) m found =
        answersItself s id vars d (.detect a) m found := by
      have hfind : (d.sectors.find? fun sector => d.enableSmartRouting &&
          mentions (lower m) sector.keywords) = none :=
        List.find?_eq_none.mpr fun x hx => by simp [hsilent (hsectors x hx)]
      rw [respond, hsilent hpersons, hfind, Bool.and_false]
      rfl
    exact comes_runWelcome hread (hrespond ▸ hr)
  rule := by rw [tells_contains, hs]

/-- A keyword with an exposed sigma is missed in some message. -/
theorem exists_missed (h : Exposed k.toList) :
    ∃ m : String, k.toList <:+: m.toList ∧ Missed k m := by
  obtain ⟨ds, hpart, hlower, hstrip⟩ := h.hides
  have hno : contains (lower k) (lower (String.ofList ds)) = false := by
    rw [contains, Bool.eq_false_iff, ne_eq, occursIn_iff]
    simpa [lower] using hlower
  have hno' : contains (lower (strip k)) (lower (strip (String.ofList ds))) = false := by
    rw [contains, Bool.eq_false_iff, ne_eq, occursIn_iff]
    simpa [lower, strip] using hstrip
  exact ⟨String.ofList ds, by simpa using hpart, missed_of_not_contains hno hno'⟩

/-- **What is there letter by letter is found, but for exposed sigmas.**  A keyword that is not
blank stands in a message.  Flows, the words of a person and of a sector, and rules that look for
the keyword all find it, in the message itself and without the blanks at its ends, if the sigmas of
the keyword stand in the message as they stand in the keyword.  So they find a keyword without
exposed sigmas in every message with the keyword in it, and one with an exposed sigma is missed in
some such message by all of them. -/
theorem keyword_found (hk : strip k ≠ "") :
    (∀ pre post : String, Kept pre.toList.reverse post.toList k.toList →
      Found k (pre ++ k ++ post) ∧ (strip k = k → Found k (strip (pre ++ k ++ post)))) ∧
    (¬ Exposed k.toList → ∀ m : String, k.toList <:+: m.toList → Found k m ∧
      (strip k = k → Found k (strip m))) ∧
    (Exposed k.toList → ∃ m : String, k.toList <:+: m.toList ∧ Missed k m) := by
  have hkept : ∀ pre post : String, Kept pre.toList.reverse post.toList k.toList →
      Found k (pre ++ k ++ post) ∧ (strip k = k → Found k (strip (pre ++ k ++ post))) :=
    fun pre post h => ⟨found_of_kept hk h, fun hkeep => found_in_stripped hk hkeep h⟩
  refine ⟨hkept, fun hexposed m hpart => ?_, exists_missed⟩
  obtain ⟨pre, post, hsplit⟩ := hpart
  have hm : m = String.ofList pre ++ k ++ String.ofList post := by
    apply String.toList_inj.mp
    simpa using hsplit.symm
  rw [hm]
  exact hkept _ _ (kept_of_not_exposed hexposed _ _)

/-- A greeting is found in a message that shouts it, and a Greek word that ends with a sigma is
missed in a longer one. -/
theorem keyword_found_greek :
    (strip "Olá" ≠ "" ∧ Found "Olá" "Olá, Σας!") ∧
      strip "ΦΩΣ" ≠ "" ∧ ∃ m : String, "ΦΩΣ".toList <:+: m.toList ∧ Missed "ΦΩΣ" m := by
  have hgreeting : strip "Olá" ≠ "" := by decide
  have hlight : strip "ΦΩΣ" ≠ "" := by decide
  have hplain : ¬ Exposed "Olá".toList := by
    intro h
    have hsigma : 'Σ' ∈ "Olá".toList := by
      generalize "Olá".toList = cs at h
      cases h <;> simp
    revert hsigma
    decide
  have hends : Exposed "ΦΩΣ".toList :=
    @Exposed.atEnd ['Φ', 'Ω'] [] (by decide +kernel) (List.forall_mem_nil _)
  exact ⟨⟨hgreeting, ((keyword_found hgreeting).2.1 hplain "Olá, Σας!"
    ⟨[], ", Σας!".toList, by decide⟩).1⟩,
    hlight, (keyword_found hlight).2.2 hends⟩

end Parley.Keyword
