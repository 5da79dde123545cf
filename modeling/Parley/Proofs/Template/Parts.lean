import Mathlib.Data.List.Forall2
import Parley.Proofs.Template.Documents

/-!
# Templates are filled in one pass

`Splits cs parts`: the text is the parts one after the other, which are slots and the longest
stretches between them. A text splits in one way only (`splits_iff`), since a slot has no brace
inside: no two slots overlap, and none begins in one stretch and ends in another.

Filling goes over the parts once: a slot whose name is a variable gives way to what the variable is
shown as, and everything else stands (`Part.Shows`).  So what comes before a slot and what comes
after it are filled each on its own, whatever is filled in between (`fill_single_pass`).
-/

namespace Parley.Template

variable {vars : Fields} {cs rest name : List Char}

/-! ### Parts -/

/-- A part of a text: a slot, or a stretch between slots. -/
inductive Part where
  | slot (name : List Char)
  | stretch (text : List Char)

/-- How a part is written. -/
def Part.written : Part → List Char
  | .slot name => '{' :: (name ++ ['}'])
  | .stretch text => text

/-- The text has a slot of the name. -/
def HasSlotOf (cs name : List Char) : Prop := IsName name ∧ (Part.slot name).written <:+: cs

/-- The text has a slot. -/
def HasSlot (cs : List Char) : Prop := ∃ name, HasSlotOf cs name

/-- A slot has a name, and a stretch is some text without slots. -/
def Part.IsProper : Part → Prop
  | .slot name => IsName name
  | .stretch text => text ≠ [] ∧ ¬ HasSlot text

variable {parts : List Part}

/-- The parts can stand side by side: of two stretches neither would be the longest. -/
def Part.Beside : Part → Part → Prop
  | .stretch _, .stretch _ => False
  | _, _ => True

/-- The text is split into slots and the longest stretches between them. -/
structure Splits (cs : List Char) (parts : List Part) : Prop where
  whole : parts.flatMap Part.written = cs
  proper : ∀ p ∈ parts, p.IsProper
  longest : parts.IsChain Part.Beside

/-! ### Slots do not overlap -/

theorem IsName.brace_notMem (h : IsName name) : '{' ∉ name := fun hmem =>
  absurd (h.2 '{' hmem) (by decide +kernel)

/-- An opening brace ends what could be the name of a slot. -/
theorem slot?_append_brace (cs rest : List Char) :
    slot? (cs ++ '{' :: rest) = (slot? cs).map fun p => (p.1, p.2 ++ '{' :: rest) := by
  cases hslot : slot? cs with
  | some p =>
      obtain ⟨name, after⟩ := p
      obtain ⟨hname, rfl⟩ := slot?_eq_some_iff.mp hslot
      exact slot?_eq_some_iff.mpr ⟨hname, by rw [List.append_assoc, List.cons_append]⟩
  | none =>
      refine Option.eq_none_iff_forall_ne_some.mpr fun p hp => ?_
      obtain ⟨hname, heq⟩ := slot?_eq_some_iff.mp hp
      rcases List.append_eq_append_iff.mp heq with ⟨tail, hsplit, htail⟩ | ⟨tail, rfl, htail⟩
      · -- the brace would stand in the name, or close it
        cases tail with
        | nil => cases htail
        | cons c tail =>
            obtain ⟨rfl, -⟩ := List.cons.inj htail
            exact hname.brace_notMem (hsplit ▸ List.mem_append_right _ List.mem_cons_self)
      · cases tail with
        | nil => cases htail
        | cons c tail =>
            obtain ⟨rfl, -⟩ := List.cons.inj htail
            rw [slot?_eq_some_iff.mpr ⟨hname, rfl⟩] at hslot
            cases hslot

/-- What comes before an opening brace has its own pieces. -/
theorem pieces_append_brace (cs rest : List Char) :
    pieces (cs ++ '{' :: rest) = pieces cs ++ pieces ('{' :: rest) := by
  fun_induction pieces cs with
  | case1 => rfl
  | case2 cs name after hslot ih =>
      obtain ⟨hname, rfl⟩ := slot?_eq_some_iff.mp hslot
      rw [List.cons_append, List.cons_append, ← ih, ← pieces_slot hname, List.append_assoc,
        List.cons_append]
  | case3 cs hslot ih =>
      have hnone : slot? (cs ++ '{' :: rest) = none := by
        rw [slot?_append_brace, hslot, Option.map_none]
      rw [List.cons_append, List.cons_append, ← ih, pieces_brace hnone]
  | case4 c cs hc ih => rw [List.cons_append, List.cons_append, ← ih, pieces_char hc]

/-- What comes before a slot and what comes after it have their own pieces. -/
theorem pieces_append_slot (h : IsName name) (pre post : List Char) :
    pieces (pre ++ (Part.slot name).written ++ post) = pieces pre ++ .slot name :: pieces post := by
  rw [← pieces_slot h, ← pieces_append_brace, Part.written]
  simp only [List.append_assoc, List.cons_append, List.nil_append]

/-- The slots among the pieces of a text are those that it has. -/
theorem slot_mem_pieces_iff : .slot name ∈ pieces cs ↔ HasSlotOf cs name := by
  constructor
  · intro h
    obtain ⟨before, after, hpieces⟩ := List.append_of_mem h
    refine ⟨isName_of_mem h, before.flatMap Piece.written, after.flatMap Piece.written, ?_⟩
    conv_rhs => rw [← flatMap_written_pieces cs, hpieces, List.flatMap_append, List.flatMap_cons]
    exact List.append_assoc _ _ _
  · rintro ⟨hname, pre, post, rfl⟩
    rw [pieces_append_slot hname]
    exact List.mem_append_right _ List.mem_cons_self

/-! ### Texts without slots -/

/-- A text has a slot when one opens at its front or later. -/
theorem hasSlot_cons {c : Char} : HasSlot (c :: cs) ↔ c = '{' ∧ slot? cs ≠ none ∨ HasSlot cs := by
  constructor
  · rintro ⟨name, hname, hpart⟩
    rcases List.infix_cons_iff.mp hpart with hstart | hlater
    · obtain ⟨rfl, after, hafter⟩ := List.cons_prefix_cons.mp hstart
      have hslot : slot? cs = some (name, after) :=
        slot?_eq_some_iff.mpr ⟨hname, by simpa using hafter.symm⟩
      exact .inl ⟨rfl, by simp [hslot]⟩
    · exact .inr ⟨name, hname, hlater⟩
  · rintro (⟨rfl, hslot⟩ | ⟨name, hname, hpart⟩)
    · obtain ⟨⟨name, after⟩, hslot⟩ := Option.ne_none_iff_exists'.mp hslot
      obtain ⟨hname, rfl⟩ := slot?_eq_some_iff.mp hslot
      exact ⟨name, hname, [], after, by simp [Part.written]⟩
    · exact ⟨name, hname, hpart.trans (List.suffix_cons c cs).isInfix⟩

theorem not_hasSlot_nil : ¬ HasSlot [] := by
  rintro ⟨name, -, hpart⟩
  cases List.infix_nil.mp hpart

/-- A text without slots is its characters. -/
theorem pieces_of_not_hasSlot (h : ¬ HasSlot cs) : pieces cs = cs.map .char := by
  fun_induction pieces cs with
  | case1 => rfl
  | case2 cs name after hslot ih => exact absurd (hasSlot_cons.mpr (.inl ⟨rfl, by simp [hslot]⟩)) h
  | case3 cs hslot ih => rw [ih fun hcs => h (hasSlot_cons.mpr (.inr hcs)), List.map_cons]
  | case4 c cs hc ih => rw [ih fun hcs => h (hasSlot_cons.mpr (.inr hcs)), List.map_cons]

/-! ### The one way to split a text -/

/-- The pieces of a part. -/
def Part.pieces : Part → List Piece
  | .slot name => [.slot name]
  | .stretch text => text.map .char

/-- A character before parts: it goes into the stretch that they begin with. -/
def joinChar (c : Char) : List Part → List Part
  | .stretch text :: parts => .stretch (c :: text) :: parts
  | parts => .stretch [c] :: parts

/-- Pieces with their characters joined to stretches. -/
def joined : List Piece → List Part
  | [] => []
  | .char c :: ps => joinChar c (joined ps)
  | .slot name :: ps => .slot name :: joined ps

/-- What may stand beside a stretch does not depend on the stretch. -/
theorem isChain_stretch {text : List Char} (h : (Part.stretch text :: parts).IsChain Part.Beside)
    (other : List Char) :
    (Part.stretch other :: parts).IsChain Part.Beside := by
  match parts with
  | [] => exact .singleton _
  | .slot name :: rest => exact List.isChain_cons_cons.mpr ⟨trivial, h.of_cons⟩
  | .stretch _ :: rest => exact ((List.isChain_cons_cons.mp h).1).elim

/-- Before a slot or at the end a character is a stretch of its own. -/
theorem joinChar_of_beside {c : Char} {text : List Char}
    (h : (Part.stretch text :: parts).IsChain Part.Beside) :
    joinChar c parts = .stretch [c] :: parts := by
  match parts with
  | [] => rfl
  | .slot name :: rest => rfl
  | .stretch _ :: rest => exact ((List.isChain_cons_cons.mp h).1).elim

/-- Characters before a slot are one stretch. -/
theorem joined_chars {c : Char} {text : List Char} {ps : List Piece}
    (h : (Part.stretch (c :: text) :: joined ps).IsChain Part.Beside) :
    joined ((c :: text).map .char ++ ps) = .stretch (c :: text) :: joined ps := by
  induction text generalizing c with
  | nil => exact joinChar_of_beside h
  | cons d text ih => rw [List.map_cons, List.cons_append, joined,
      ih (isChain_stretch h _), joinChar]

/-- Proper parts that stand side by side are the joined pieces of what they make. -/
theorem joined_pieces_written (hproper : ∀ p ∈ parts, p.IsProper)
    (hlongest : parts.IsChain Part.Beside) :
    joined (pieces (parts.flatMap Part.written)) = parts := by
  induction parts with
  | nil => rw [List.flatMap_nil, pieces, joined]
  | cons p rest ih =>
      obtain ⟨hp, hrest⟩ := List.forall_mem_cons.mp hproper
      have ih := ih hrest hlongest.of_cons
      rw [List.flatMap_cons]
      cases p with
      | slot name =>
          have hpieces := pieces_append_slot hp [] (rest.flatMap Part.written)
          rw [List.nil_append, pieces, List.nil_append] at hpieces
          rw [hpieces, joined, ih]
      | stretch text =>
          obtain ⟨hne, hnone⟩ := hp
          obtain ⟨c, text, rfl⟩ := List.exists_cons_of_ne_nil hne
          -- after the stretch the text ends, or a slot begins
          have hpieces : pieces ((Part.stretch (c :: text)).written ++ rest.flatMap Part.written) =
              (c :: text).map .char ++ pieces (rest.flatMap Part.written) := by
            cases rest with
            | nil =>
                rw [List.flatMap_nil, List.append_nil, pieces, List.append_nil]
                exact pieces_of_not_hasSlot hnone
            | cons p rest =>
                cases p with
                | slot name =>
                    rw [List.flatMap_cons, ← pieces_of_not_hasSlot hnone]
                    exact pieces_append_brace _ _
                | stretch other => exact ((List.isChain_cons_cons.mp hlongest).1).elim
          rw [hpieces, joined_chars (ih.symm ▸ hlongest), ih]

theorem Splits.nil : Splits [] [] := ⟨rfl, List.forall_mem_nil _, .nil⟩

/-- A slot at the front is the first part. -/
theorem Splits.slot (hname : IsName name) (h : Splits rest parts) :
    Splits ('{' :: (name ++ '}' :: rest)) (.slot name :: parts) where
  whole := by
    rw [List.flatMap_cons, h.whole, Part.written]
    simp only [List.append_assoc, List.cons_append, List.nil_append]
  proper := List.forall_mem_cons.mpr ⟨hname, h.proper⟩
  longest := by
    match parts, h.longest with
    | [], _ => exact .singleton _
    | p :: parts, hchain => exact List.isChain_cons_cons.mpr ⟨trivial, hchain⟩

/-- A character with which no slot begins. -/
theorem Splits.char {c : Char} (hc : ¬ (c = '{' ∧ slot? rest ≠ none)) (h : Splits rest parts) :
    Splits (c :: rest) (joinChar c parts) := by
  have hsingle : ¬ HasSlot [c] := fun hslot =>
    (hasSlot_cons.mp hslot).elim (fun hbrace => hbrace.2 rfl) not_hasSlot_nil
  obtain ⟨rfl, hproper, hlongest⟩ := h
  match parts with
  | [] => exact ⟨rfl, List.forall_mem_singleton.mpr ⟨List.cons_ne_nil _ _, hsingle⟩, .singleton _⟩
  | .slot name :: parts =>
    exact ⟨rfl, List.forall_mem_cons.mpr ⟨⟨List.cons_ne_nil _ _, hsingle⟩, hproper⟩,
      List.isChain_cons_cons.mpr ⟨trivial, hlongest⟩⟩
  | .stretch text :: parts =>
    obtain ⟨⟨-, hnone⟩, hrest⟩ := List.forall_mem_cons.mp hproper
    have hlonger : ¬ HasSlot (c :: text) := by
      intro hslot
      obtain ⟨hbrace, hslot⟩ := (hasSlot_cons.mp hslot).resolve_right hnone
      obtain ⟨⟨name, after⟩, hslot⟩ := Option.ne_none_iff_exists'.mp hslot
      obtain ⟨hname, rfl⟩ := slot?_eq_some_iff.mp hslot
      refine hc ⟨hbrace, ?_⟩
      rw [List.flatMap_cons, Part.written, List.append_assoc, List.cons_append,
        slot?_eq_some_iff.mpr ⟨hname, rfl⟩]
      exact Option.some_ne_none _
    exact ⟨rfl, List.forall_mem_cons.mpr ⟨⟨List.cons_ne_nil _ _, hlonger⟩, hrest⟩,
      isChain_stretch hlongest _⟩

/-- A text is split into the parts that its pieces are joined to. -/
theorem splits_joined (cs : List Char) : Splits cs (joined (pieces cs)) := by
  fun_induction pieces cs with
  | case1 => exact .nil
  | case2 cs name after hslot ih =>
      obtain ⟨hname, rfl⟩ := slot?_eq_some_iff.mp hslot
      exact ih.slot hname
  | case3 cs hslot ih => exact ih.char fun h => h.2 hslot
  | case4 c cs hc ih => exact ih.char fun h => hc h.1

/-- **A text splits in one way**: into its pieces, with the characters joined to stretches. -/
theorem splits_iff : Splits cs parts ↔ parts = joined (pieces cs) := by
  constructor
  · rintro ⟨rfl, hproper, hlongest⟩
    exact (joined_pieces_written hproper hlongest).symm
  · rintro rfl
    exact splits_joined cs

/-! ### Filling -/

/-- The pieces of the parts of a text are its pieces. -/
theorem flatMap_pieces_joined (ps : List Piece) : (joined ps).flatMap Part.pieces = ps := by
  induction ps with
  | nil => rfl
  | cons p ps ih =>
      cases p with
      | slot name => exact congrArg (_ :: ·) ih
      | char c =>
          rw [joined]
          conv_rhs => rw [← ih]
          match joined ps with
          | [] => rfl
          | .slot name :: parts => rfl
          | .stretch text :: parts => rfl

/-- What a part is shown as. -/
inductive Part.Shows (vars : Fields) : Part → List Char → Prop where
  | stretch (text : List Char) : Shows vars (.stretch text) text
  /-- A slot that names no variable stands. -/
  | unknown {name : List Char} (h : vars.get? (String.ofList name) = none) :
      Shows vars (.slot name) (Part.slot name).written
  | known {name : List Char} {v : Value} {s : String} (h : vars.get? (String.ofList name) = some v)
      (hs : v.display = .ok s) : Shows vars (.slot name) s.toList

/-- A slot is filled with the display of its variable. -/
theorem filled_slot {v : Value} {s : String} (hv : vars.get? (String.ofList name) = some v)
    (hs : v.display = .ok s) :
    (Piece.slot name).filled vars = .ok s.toList := by
  rw [Piece.filled, hv]
  simp only [hs, Except.map]

theorem fillPieces_singleton (p : Piece) : fillPieces vars [p] = p.filled vars := by
  rw [fillPieces, fillPieces]
  cases p.filled vars with
  | error f => rfl
  | ok here => exact congrArg Except.ok (List.append_nil here)

/-- The pieces of a part are filled with what the part shows. -/
theorem fillPieces_of_shows {p : Part} {shown : List Char} (h : p.Shows vars shown) :
    fillPieces vars p.pieces = .ok shown := by
  cases h with
  | stretch => exact fillPieces_chars _
  | unknown hname => rw [Part.pieces, fillPieces_singleton, Piece.filled, hname]; rfl
  | known hname hs => rw [Part.pieces, fillPieces_singleton, filled_slot hname hs]

/-- Parts are filled to what they are shown as, one after the other. -/
theorem fillPieces_of_forall₂ {shown : List (List Char)}
    (h : List.Forall₂ (Part.Shows vars) parts shown) :
    fillPieces vars (parts.flatMap Part.pieces) = .ok shown.flatten := by
  induction h with
  | nil => rfl
  | cons hp _ ih => rw [List.flatMap_cons, fillPieces_append, fillPieces_of_shows hp, ih]; rfl

/-- Every variable has a text that shows it. -/
def Displayable (vars : Fields) :
    Prop := ∀ name v, vars.get? name = some v → ∃ text, v.display = .ok text

/-- Every part shows something when all variables can be displayed. -/
theorem Part.exists_shows (h : Displayable vars) (p : Part) : ∃ shown, p.Shows vars shown := by
  cases p with
  | stretch text => exact ⟨text, .stretch text⟩
  | slot name =>
      cases hv : vars.get? (String.ofList name) with
      | none => exact ⟨_, .unknown hv⟩
      | some v =>
          obtain ⟨s, hs⟩ := h _ v hv
          exact ⟨_, .known hv hs⟩

/-- All parts of a text show something when all variables can be displayed. -/
theorem exists_forall₂_shows (h : Displayable vars) (parts : List Part) :
    ∃ shown, List.Forall₂ (Part.Shows vars) parts shown := by
  induction parts with
  | nil => exact ⟨[], .nil⟩
  | cons p parts ih =>
      obtain ⟨here, hp⟩ := p.exists_shows h
      obtain ⟨after, hrest⟩ := ih
      exact ⟨here :: after, .cons hp hrest⟩

/-- Where every variable can be shown, a text is filled to what its parts are shown as. -/
theorem exists_fillPieces (h : Displayable vars) (cs : List Char) :
    ∃ shown, List.Forall₂ (Part.Shows vars) (joined (pieces cs)) shown ∧
      fillPieces vars (pieces cs) = .ok shown.flatten := by
  obtain ⟨shown, hparts⟩ := exists_forall₂_shows h (joined (pieces cs))
  have hfill := fillPieces_of_forall₂ hparts
  rw [flatMap_pieces_joined] at hfill
  exact ⟨shown, hparts, hfill⟩

/-- A text is filled as its pieces are. -/
theorem fill_of_fillPieces {text filled : List Char}
    (h : fillPieces vars (pieces text) = .ok filled) :
    fill (String.ofList text) vars = .ok (String.ofList filled) := by
  rw [fill, String.toList_ofList, h]
  rfl

/-- Every text is filled when all variables can be displayed. -/
theorem fill_isOk (h : Displayable vars) (text : String) :
    ∃ filled, fill text vars = .ok filled := by
  obtain ⟨shown, -, hfill⟩ := exists_fillPieces h text.toList
  exact ⟨_, by rw [fill, hfill]; rfl⟩

/-- What pieces are filled to depends only on the variables that they name. -/
theorem fillPieces_congr {vars' : Fields} {ps : List Piece}
    (h : ∀ name, .slot name ∈ ps → vars'.get? (String.ofList name) =
      vars.get? (String.ofList name)) :
    fillPieces vars' ps = fillPieces vars ps := by
  induction ps with
  | nil => rfl
  | cons p ps ih =>
      have hp : p.filled vars' = p.filled vars := by
        cases p with
        | char c => rfl
        | slot name => rw [Piece.filled, Piece.filled, h name List.mem_cons_self]
      rw [fillPieces, fillPieces, hp, ih fun name hname => h name (List.mem_cons_of_mem _ hname)]

/-- Only a slot has a slot among its pieces. -/
theorem slot_mem_pieces {p : Part} (h : .slot name ∈ p.pieces) : p = .slot name := by
  cases p with
  | slot other =>
      cases List.mem_singleton.mp h
      rfl
  | stretch text =>
      obtain ⟨c, -, hc⟩ := List.mem_map.mp h
      cases hc

/-- **Templates are filled in one pass.**  A text splits in one way into slots and the longest
stretches between them. Where every variable can be shown, the text is filled to what its parts are
shown as, one after the other.  So a slot that names a variable gives way to what the variable is
shown as, and what comes before it and what comes after it are filled each on its own: what is
filled in is not looked at again.  Only the variables that are named in the text matter, and without
variables the text stays as it is. -/
theorem fill_single_pass (text : String) (vars : Fields)
    (hshown : Displayable vars) :
    ∃ parts, Splits text.toList parts ∧ (∀ others, Splits text.toList others → others = parts) ∧
      (∃ shown, List.Forall₂ (Part.Shows vars) parts shown ∧
        fill text vars = .ok (String.ofList shown.flatten)) ∧
      (∀ pre name post v s, text.toList = pre ++ (Part.slot name).written ++ post → IsName name →
        vars.get? (String.ofList name) = some v → v.display = .ok s →
        ∃ before after, fill (String.ofList pre) vars = .ok before ∧
          fill (String.ofList post) vars = .ok after ∧
          fill text vars = .ok (before ++ s ++ after)) ∧
      (∀ vars' : Fields, (∀ name, .slot name ∈ parts →
        vars'.get? (String.ofList name) = vars.get? (String.ofList name)) →
          fill text vars' = fill text vars) ∧
      fill text [] = .ok text := by
  refine ⟨joined (pieces text.toList), splits_joined _, fun _ h => splits_iff.mp h, ?_, ?_, ?_,
    fill_nil text⟩
  · obtain ⟨shown, hparts, hfill⟩ := exists_fillPieces hshown text.toList
    exact ⟨shown, hparts, by rw [fill, hfill]; rfl⟩
  · intro pre name post v s htext hname hv hs
    obtain ⟨before, -, hbefore⟩ := exists_fillPieces hshown pre
    obtain ⟨after, -, hafter⟩ := exists_fillPieces hshown post
    refine ⟨_, _, fill_of_fillPieces hbefore, fill_of_fillPieces hafter, ?_⟩
    rw [fill, htext, pieces_append_slot hname, fillPieces_append, fillPieces, hbefore,
      filled_slot hv hs, hafter]
    simp [bind, Except.bind, pure, Except.pure, Except.map, String.ofList_append,
      String.append_assoc]
  · intro vars' hsame
    have hnamed (name : List Char) (hname : .slot name ∈ pieces text.toList) :
        .slot name ∈ joined (pieces text.toList) := by
      rw [← flatMap_pieces_joined (pieces text.toList)] at hname
      obtain ⟨p, hp, hslot⟩ := List.mem_flatMap.mp hname
      rwa [slot_mem_pieces hslot] at hp
    rw [fill, fill, fillPieces_congr fun name hname => hsame name (hnamed name hname)]

/-- The variables of a guest whose name looks like a slot. -/
def guest : Fields := [("nome", .text "\x7bdia\x7d"), ("dia", .text "hoje")]

/-- The name of the guest is put into a greeting as it is. -/
theorem fill_single_pass_greeting :
    Displayable guest ∧
      ∃ before after, fill "Olá \x7b" guest = .ok before ∧
        fill "\x7d, até \x7bdia\x7d!" guest = .ok after ∧
        fill "Olá \x7b\x7bnome\x7d\x7d, até \x7bdia\x7d!" guest =
          .ok (before ++ "\x7bdia\x7d" ++ after) := by
  have hshown : Displayable guest := by
    intro name v h
    have hmem := Entries.mem_of_get? h
    simp only [guest, List.mem_cons, Prod.mk.injEq, List.not_mem_nil, or_false] at hmem
    obtain ⟨-, rfl⟩ | ⟨-, rfl⟩ := hmem
    · exact ⟨_, rfl⟩
    · exact ⟨_, rfl⟩
  obtain ⟨parts, -, -, -, hslot, -⟩ :=
    fill_single_pass "Olá \x7b\x7bnome\x7d\x7d, até \x7bdia\x7d!" guest hshown
  have hname : IsName "nome".toList := ⟨by decide, List.all_eq_true.mp (by decide +kernel)⟩
  exact ⟨hshown, hslot "Olá \x7b".toList "nome".toList "\x7d, até \x7bdia\x7d!".toList _ _
    (by decide) hname rfl rfl⟩

/-- What a value stands for is not filled again. -/
example : fill "Olá \x7b\x7bnome\x7d\x7d, até \x7bdia\x7d!" guest =
    .ok "Olá \x7b\x7bdia\x7d\x7d, até hoje!" := by cbv

end Parley.Template
