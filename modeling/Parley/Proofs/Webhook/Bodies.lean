import Parley.Proofs.Template.Documents
import Parley.Proofs.Webhook.Sending

/-!
# Bodies that are authored as objects and as texts

The body of a webhook node is authored as an object, whose texts are templates, or as a text, which
is a template as a whole and is read as a document once it is filled.

The text of an object and the object are the same body when the variables in it are shown without
quotes, backslashes and controls (`requestBody_printed`).  For any other variable there is an object
that differs from its text (`bodies_agree_iff`): what is filled in is read as a part of the
document, and may add entries to it.
-/

namespace Parley.Value

open Template (IsName)

variable {among among' : List Char → Prop}

mutual

theorem IsTemplate.mono (h : ∀ name, IsName name → among name → among' name) :
    ∀ {v : Value}, v.IsTemplate among → v.IsTemplate among'
  | .null, hv | .bool _, hv | .int _, hv | .float _, hv => hv
  | .text _, hv => fun name hname => h name (Template.isName_of_mem (Template.mem_slots.mp hname))
      (hv name hname)
  | .list _, hv => AreTemplates.mono h hv
  | .object _, hv => NameTemplates.mono h hv

theorem AreTemplates.mono (h : ∀ name, IsName name → among name → among' name) :
    ∀ {items : List Value}, AreTemplates among items → AreTemplates among' items
  | [], _ => trivial
  | _ :: _, hitems => ⟨hitems.1.mono h, AreTemplates.mono h hitems.2⟩

theorem NameTemplates.mono (h : ∀ name, IsName name → among name → among' name) :
    ∀ {fields : List (String × Value)}, NameTemplates among fields → NameTemplates among' fields
  | [], _ => trivial
  | _ :: _, hfields => ⟨hfields.1, hfields.2.1.mono h, NameTemplates.mono h hfields.2.2⟩

end

end Parley.Value

namespace Parley.Webhook

open Step (requestBody)
open Template (Fills IsName Piece ShownPlainly fill fillLeaves)
open Json (IsBlanks Style escapeChar)

variable {st : Style} {vars : Fields} {fields : Fields} {name t blanks rest : List Char}
  {s : String}

/-! ### Variables that are shown plainly -/

theorem print_object_ne (st : Style) (fields : Fields) :
    String.ofList (Json.print st (.object fields)) ≠ "" :=
  fun h => List.cons_ne_nil _ _ (String.ofList_eq_empty_iff.mp h)

/-- **The text of an object is the same body as the object** when its variables are shown plainly.
-/
theorem requestBody_printed (hst : st.IsPlain) (hdistinct : (Value.object fields).Distinct)
    (h : (Value.object fields).IsTemplate (ShownPlainly vars)) {text : String}
    (htext : (Value.object fields).json st = .ok text) :
    requestBody vars (some (.text text)) = requestBody vars (some (.fields fields)) := by
  unfold Value.json at htext
  split at htext
  · cases htext
  next hlong =>
  cases htext
  have hlegible : (Value.object fields).Legible := ⟨hdistinct, Bool.eq_false_iff.mpr hlong⟩
  rw [requestBody_of_fill (print_object_ne st fields) (Template.fill_printed hst h)]
  unfold requestBody
  dsimp only
  cases hfill : fillLeaves vars (.object fields) with
  | error e => rfl
  | ok w =>
      obtain ⟨text, htext, hread⟩ := (Template.legible_of_fillLeaves hfill hlegible).read_json hst
      unfold Value.json at htext
      split at htext <;> cases htext
      simp only [Except.map, hread]

/-! ### Variables that are not -/

/-- When a string that is put between quotes is read as itself, as the value of an entry, its
characters stand for themselves. -/
theorem plain_of_readPairs {fuel : Nat} {pairs : List (String × Value)} (hblanks : IsBlanks blanks)
    (h : Json.readPairs (fuel + 2)
      ('"' :: 'k' :: '"' :: ':' :: (blanks ++ '"' :: (t ++ ['"', '}']))) = .ok (pairs, rest))
    (hmem : ("k", .text (String.ofList t)) ∈ pairs) : ∀ c ∈ t, escapeChar c = [c] := by
  have hname (more : List Char) : Json.readText ('k' :: '"' :: more) = .ok ("k", more) :=
    Json.readText_spells (Json.spells_printed "k".toList) more
  have hcolon (more : List Char) : Json.skip (':' :: more) = ':' :: more := rfl
  rw [Json.readPairs, hname] at h
  obtain ⟨_, hk, h⟩ := Json.bind_eq_ok.mp h
  cases hk
  dsimp only at h
  rw [hcolon] at h
  obtain ⟨⟨v, left'⟩, hread, h⟩ := Json.bind_eq_ok.mp h
  rw [Json.skip_to hblanks rfl, Json.readValue] at hread
  obtain ⟨⟨s, left⟩, htext, heq⟩ := Json.map_eq_ok.mp hread
  cases heq
  obtain ⟨text, hcs, hsize, hplain⟩ := Json.readText_taken htext
  have hlength := congrArg List.length hcs
  simp only [List.length_append, List.length_cons, List.length_nil] at hlength
  have hleft := Json.length_skip_le left
  -- the string ends at the quote that was put after it, unless it ends before
  have hfirst (hs : s = String.ofList t) (hpos : 0 < left.length) :
      ∀ c ∈ t, escapeChar c = [c] := by
    subst hs
    rw [String.length_ofList] at hsize hplain
    have heq : t = text := (List.append_inj hcs (by omega)).1
    exact heq ▸ hplain (by omega)
  dsimp only at h
  split at h
  · next hskip =>
    cases h
    rw [hskip, List.length_cons] at hleft
    cases List.mem_singleton.mp hmem
    exact hfirst rfl (by omega)
  · next more hskip =>
    obtain ⟨⟨pairs', rest'⟩, hmore, heq⟩ := Json.map_eq_ok.mp h
    cases heq
    rw [hskip, List.length_cons] at hleft
    rcases List.mem_cons.mp hmem with heq | hmem
    · cases heq
      exact hfirst rfl (by omega)
    · have hlong := ((Json.fronts _).pairs hmore).2 _ hmem |>.text_le _ rfl
      have hmore := Json.length_skip_le more
      rw [String.length_ofList] at hlong
      omega
  · cases h

/-- The same of an object with one entry. -/
theorem plain_of_read (hblanks : IsBlanks blanks)
    (h : Json.read (String.ofList
      ('{' :: '"' :: 'k' :: '"' :: ':' :: (blanks ++ '"' :: (t ++ ['"', '}'])))) =
      .ok (.object [("k", .text (String.ofList t))])) : ∀ c ∈ t, escapeChar c = [c] := by
  have hbrace (more : List Char) : Json.skip ('{' :: more) = '{' :: more := rfl
  have hquote (more : List Char) : Json.skip ('"' :: more) = '"' :: more := rfl
  unfold Json.read at h
  dsimp only at h
  rw [String.toList_ofList, hbrace] at h
  obtain ⟨⟨v, rest⟩, hread, h⟩ := Json.bind_eq_ok.mp h
  rw [Json.readValue, hquote] at hread
  obtain ⟨⟨pairs, rest'⟩, hpairs, heq⟩ := Json.map_eq_ok.mp hread
  cases heq
  dsimp only at h
  split at h
  · have hobject := Value.object.inj (Except.ok.inj h)
    exact plain_of_readPairs hblanks hpairs
      (Entries.mem_of_mem_ofPairs
        (hobject ▸ List.mem_singleton_self (("k", .text (String.ofList t)) : String × Value)))
  · cases h

/-- An object with one entry, which is a slot. -/
def slotted (name : List Char) : Fields := [("k", .text (String.ofList ('{' :: (name ++ ['}']))))]

theorem print_slotted (hname : IsName name) (hcolon : st.afterName = ':' :: blanks) :
    Json.print st (.object (slotted name)) =
      '{' :: '"' :: ('k' :: '"' :: ':' :: (blanks ++ ['"']) ++ '{' :: (name ++ ['}']) ++
        ['"', '}']) := by
  have hescaped : ('{' :: (name ++ ['}'])).flatMap escapeChar = '{' :: (name ++ ['}']) :=
    Template.flatMap_escapeChar (List.forall_mem_cons.mpr ⟨rfl, hname.plain⟩)
  rw [slotted, Json.print, Json.printFields, Json.print, Json.printText, Json.printText, hcolon]
  simp only [String.toList_ofList, hescaped, List.cons_append, List.append_assoc, List.nil_append]
  rfl

/-- The text of an object with a slot is filled with what the slot is filled with. -/
theorem fill_print_slotted (hname : IsName name) (hcolon : st.afterName = ':' :: blanks)
    (hblanks : IsBlanks blanks) (hfilled : (Piece.slot name).filled vars = .ok t) :
    fill (String.ofList (Json.print st (.object (slotted name)))) vars =
      .ok (String.ofList ('{' :: '"' :: 'k' :: '"' :: ':' ::
        (blanks ++ '"' :: (t ++ ['"', '}'])))) := by
  have hbrace : '{' ∉ blanks := fun hmem => absurd (hblanks _ hmem) (by decide)
  have hopen : '{' ∉ '"' :: 'k' :: '"' :: ':' :: (blanks ++ ['"']) := by simp [hbrace]
  have hslot : Fills vars ('{' :: (name ++ ['}'])) ((Except.ok t).map id) := by
    have hslot := @Template.fills_slot vars name hname
    rwa [hfilled] at hslot
  have hclose : Fills vars ['"', '}'] (.ok ['"', '}']) := Template.fills_self (by decide)
  have hentry : Fills vars
    ('"' :: ('k' :: '"' :: ':' :: (blanks ++ ['"']) ++ '{' :: (name ++ ['}']) ++ ['"', '}']))
      (.ok ('"' :: 'k' :: '"' :: ':' :: (blanks ++ ['"']) ++ t ++ ['"', '}'])) :=
    (hslot.after (Template.fills_self hopen)).before hclose
  have hfill := @Fills.fill vars _ _ (.ok _) _ (hentry.brace (by decide +kernel))
  rw [print_slotted hname hcolon, hfill]
  simp only [Except.map, List.cons_append, List.append_assoc, List.nil_append]

/-- A slot on which an object and its text agree is shown plainly. -/
theorem shownPlainly_of_agree (hst : st.IsPlain) (hname : IsName name)
    (h : ∀ text, (Value.object (slotted name)).json st = .ok text →
      requestBody vars (some (.text text)) = requestBody vars (some (.fields (slotted name)))) :
    ShownPlainly vars name := by
  intro v s hv hs c hc
  obtain ⟨blanks, hcolon, hblanks⟩ := hst.name
  have hfilled : (Piece.slot name).filled vars = .ok s.toList := by
    rw [Piece.filled, hv]
    exact congrArg (Except.map String.toList) hs
  have hobject : requestBody vars (some (.fields (slotted name))) =
      .ok (.object [("k", .text s)]) := by
    have hfill := @Fills.fill vars _ Unit (.ok ()) (fun _ => s.toList)
      (hfilled ▸ Template.fills_slot hname)
    unfold requestBody slotted
    dsimp only [fillLeaves, Template.fillFields]
    rw [hfill, String.ofList_toList]
    rfl
  have hagree := h _ (if_neg Bool.false_ne_true)
  rw [requestBody_of_fill (print_object_ne st _) (fill_print_slotted hname hcolon hblanks hfilled),
    hobject] at hagree
  have hdenotes := Except.ok.inj hagree
  dsimp only at hdenotes
  split at hdenotes
  · next w hread =>
    rw [hdenotes, ← String.ofList_toList (s := s)] at hread
    rw [String.toList_ofList] at hread
    exact Json.escapeChar_eq_self_iff.mp (plain_of_read hblanks hread c hc)
  · cases hdenotes

/-- **An object and its text are the same body just for variables that are shown plainly.** -/
theorem bodies_agree_iff (hst : st.IsPlain) (vars : Fields) (among : List Char → Prop) :
    (∀ fields : Fields, (Value.object fields).Distinct → (Value.object fields).IsTemplate among →
      ∀ text, (Value.object fields).json st = .ok text →
        requestBody vars (some (.text text)) = requestBody vars (some (.fields fields))) ↔
      ∀ name, IsName name → among name → ShownPlainly vars name := by
  constructor
  · intro h name hname hamong
    refine shownPlainly_of_agree hst hname (h _ ?_ ?_)
    · exact ⟨List.nodup_singleton _, trivial, trivial⟩
    · refine ⟨Template.slots_of_brace_notMem (by decide), fun other hother => ?_, trivial⟩
      have hpieces := Template.mem_slots.mp hother
      rw [String.toList_ofList, Template.pieces_slot hname, Template.pieces] at hpieces
      cases List.mem_singleton.mp hpieces
      exact hamong
  · intro h fields hdistinct htemplate text
    exact requestBody_printed hst hdistinct (htemplate.mono h)

/-- The name of a client, which ends the string that it is put in. -/
def injecting : Fields := [("nome", .text "x\",\"admin\":\"sim")]

theorem bodies_agree_iff_injecting : Style.compact.IsPlain ∧
    ¬ ∀ fields : Fields, (Value.object fields).Distinct →
      (Value.object fields).IsTemplate (fun _ => True) →
      ∀ text, (Value.object fields).json Style.compact = .ok text →
        requestBody injecting (some (.text text)) = requestBody injecting
          (some (.fields fields)) := by
  refine ⟨Json.Style.isPlain_compact, fun h => ?_⟩
  have hword : ['n', 'o', 'm', 'e'].all Text.isWord = true := by decide +kernel
  have hname : IsName ['n', 'o', 'm', 'e'] := ⟨List.cons_ne_nil _ _, List.all_eq_true.mp hword⟩
  have hnome : injecting.get? (String.ofList ['n', 'o', 'm', 'e']) =
      some (.text "x\",\"admin\":\"sim") := by
    simp [injecting, Entries.get?]
  have hplain := (bodies_agree_iff Json.Style.isPlain_compact injecting fun _ =>
    True).mp h _ hname trivial
  exact (hplain _ _ hnome rfl '"' (by decide)).1 rfl

/-- The name adds an entry to a body that is authored as a text. -/
example : requestBody injecting (some (.text "\x7b\"cliente\":\"\x7bnome\x7d\"\x7d")) =
    .ok (.object [("cliente", .text "x"), ("admin", .text "sim")]) := by cbv

end Parley.Webhook
