import Parley.Proofs.Json.Reading
import Parley.Template

/-!
# Templates of documents

A document can be filled in two ways: the texts in it are templates (`fillLeaves`), or its printed
text is one (`fill`).  Printing keeps the slots of the texts and makes no others (`pieces_escaped`),
since a brace is followed by a quote, a brace or an escape where it is no part of a slot.

`ShownPlainly vars name`: the variable of the name is shown as characters that stand for themselves
in strings.  When all variables in a document are, filling its text gives the text of the filled
document (`fill_printed`).
-/

namespace Parley.Template

open Json (escapeChar)

variable {vars : Fields} {name cs rest : List Char} {ps : List Piece}

/-! ### Slots -/

/-- A slot can have the name. -/
def IsName (name : List Char) : Prop := name ≠ [] ∧ ∀ c ∈ name, Text.isWord c = true

/-- A slot is a name up to a closing brace. -/
theorem slot?_eq_some_iff : slot? cs = some (name, rest) ↔ IsName name ∧
    cs = name ++ '}' :: rest := by
  constructor
  · intro h
    have heq := eq_of_slot? h
    unfold slot? at h
    split at h
    · next c first after htake _ =>
      cases h
      exact ⟨⟨List.cons_ne_nil _ _, fun d hd => List.mem_takeWhile_imp (htake ▸ hd)⟩, heq⟩
    · cases h
  · rintro ⟨⟨hne, hword⟩, rfl⟩
    have hbrace : ¬ Text.isWord '}' = true := by decide +kernel
    unfold slot?
    rw [List.takeWhile_append_of_pos hword, List.dropWhile_append_of_pos hword,
      List.takeWhile_cons_of_neg hbrace, List.dropWhile_cons_of_neg hbrace, List.append_nil]
    cases name with
    | nil => exact absurd rfl hne
    | cons c first => rfl

/-- A name in braces is one piece. -/
theorem pieces_slot (h : IsName name) (rest : List Char) :
    pieces ('{' :: (name ++ '}' :: rest)) = .slot name :: pieces rest := by
  rw [pieces, if_pos rfl]
  have hslot := slot?_eq_some_iff.mpr ⟨h, Eq.refl (name ++ '}' :: rest)⟩
  split
  · next heq =>
    rw [hslot] at heq
    cases heq
    rfl
  · next heq =>
    rw [hslot] at heq
    cases heq

/-- A brace that opens no slot is a piece of its own. -/
theorem pieces_brace (h : slot? cs = none) : pieces ('{' :: cs) = .char '{' :: pieces cs := by
  rw [pieces, if_pos rfl]
  split
  · next heq =>
    rw [h] at heq
    cases heq
  · rfl

/-- So is every other character. -/
theorem pieces_char {c : Char} (h : c ≠ '{') (cs : List Char) :
    pieces (c :: cs) = .char c :: pieces cs := by
  rw [pieces, if_neg h]

/-- Where no brace opens, a text is its characters. -/
theorem pieces_append {cs : List Char} (h : '{' ∉ cs) (rest : List Char) :
    pieces (cs ++ rest) = cs.map .char ++ pieces rest := by
  induction cs with
  | nil => rfl
  | cons c cs ih =>
      rw [List.mem_cons, not_or] at h
      obtain ⟨hc, hcs⟩ := h
      rw [List.cons_append, pieces_char (Ne.symm hc), ih hcs]
      rfl

/-- The slots of a text have names that slots can have. -/
theorem isName_of_mem (h : .slot name ∈ pieces cs) : IsName name := by
  fun_induction pieces cs with
  | case1 => cases h
  | case2 rest first after hslot ih =>
      rcases List.mem_cons.mp h with heq | h
      · cases heq
        exact (slot?_eq_some_iff.mp hslot).1
      · exact ih h
  | case3 rest _ ih => exact ih ((List.mem_cons.mp h).resolve_left (by rintro ⟨⟩))
  | case4 c rest _ ih => exact ih ((List.mem_cons.mp h).resolve_left (by rintro ⟨⟩))

/-! ### Slots of printed texts -/

/-- A character is printed as itself or by an escape, which begins with a backslash and has no
brace. -/
theorem escapeChar_cases (c : Char) : escapeChar c = [c] ∨ ∃ tail, escapeChar c = '\\' :: tail ∧
    '{' ∉ tail := by
  unfold escapeChar
  have hunit : ∀ n < 0x20, '{' ∉ 'u' :: Text.hex 4 n := by decide
  split_ifs with _ _ _ _ _ _ _ hcontrol
  · exact .inr ⟨_, rfl, by decide⟩
  · exact .inr ⟨_, rfl, by decide⟩
  · exact .inr ⟨_, rfl, by decide⟩
  · exact .inr ⟨_, rfl, by decide⟩
  · exact .inr ⟨_, rfl, by decide⟩
  · exact .inr ⟨_, rfl, by decide⟩
  · exact .inr ⟨_, rfl, by decide⟩
  · exact .inr ⟨_, rfl, hunit _ hcontrol⟩
  · exact .inl rfl

/-- Characters of words are not escaped. -/
theorem escapeChar_word {c : Char} (h : Text.isWord c = true) : escapeChar c = [c] := by
  have hlow : ∀ r ∈ Text.wordRanges, 0x30 ≤ r.1 := by decide +kernel
  have hslash : ¬ Text.isWord '\\' = true := by decide +kernel
  obtain ⟨r, hr, hle, -⟩ := Text.exists_range_of_inRanges h
  have hmin := (hlow r hr).trans hle
  refine Json.escapeChar_eq_self_iff.mpr ⟨?_, ?_, by omega⟩
  · rintro rfl
    exact absurd hmin (by decide)
  · rintro rfl
    exact hslash h

theorem flatMap_escapeChar (h : ∀ c ∈ cs, escapeChar c = [c]) : cs.flatMap escapeChar = cs := by
  rw [List.flatMap_congr h, List.flatMap_singleton']

/-- A name is written in a quoted text as it is. -/
theorem IsName.plain (h : IsName name) : ∀ c ∈ name ++ ['}'], escapeChar c = [c] := by
  intro c hc
  rcases List.mem_append.mp hc with hc | hc
  · exact escapeChar_word (h.2 c hc)
  · cases List.mem_singleton.mp hc
    rfl

/-- What a printed string begins with, it prints, up to escapes. -/
theorem eq_append_of_escaped {word after : List Char} (hword : ∀ c ∈ word, escapeChar c = [c])
    (h : cs.flatMap escapeChar ++ '"' :: rest = word ++ after) : ∃ tail, cs = word ++ tail := by
  induction word generalizing cs with
  | nil => exact ⟨cs, rfl⟩
  | cons w word ih =>
      obtain ⟨hw, hmore⟩ := List.forall_mem_cons.mp hword
      obtain ⟨hquote, hslash, -⟩ := Json.escapeChar_eq_self_iff.mp hw
      cases cs with
      | nil => exact absurd (List.cons.inj h).1.symm hquote
      | cons c cs =>
          rw [List.flatMap_cons, List.append_assoc] at h
          rcases escapeChar_cases c with hc | ⟨tail, hc, -⟩
          · rw [hc] at h
            obtain ⟨rfl, heq⟩ := List.cons.inj h
            obtain ⟨tail, rfl⟩ := ih hmore heq
            exact ⟨tail, rfl⟩
          · rw [hc] at h
            exact absurd (List.cons.inj h).1.symm hslash

/-- After a brace, a text and its printed string have the same slot. -/
theorem slot?_escaped (cs rest : List Char) :
    slot? (cs.flatMap escapeChar ++ '"' :: rest) =
      (slot? cs).map fun p => (p.1, p.2.flatMap escapeChar ++ '"' :: rest) := by
  have hclose (name after : List Char) : name ++ '}' :: after = (name ++ ['}']) ++ after := by
    rw [List.append_assoc, List.singleton_append]
  cases hslot : slot? cs with
  | some p =>
      obtain ⟨name, after⟩ := p
      obtain ⟨hname, rfl⟩ := slot?_eq_some_iff.mp hslot
      refine slot?_eq_some_iff.mpr ⟨hname, ?_⟩
      rw [hclose name after, List.flatMap_append, flatMap_escapeChar hname.plain, List.append_assoc]
      exact (hclose name _).symm
  | none =>
      refine Option.eq_none_iff_forall_ne_some.mpr fun p hp => ?_
      obtain ⟨hname, heq⟩ := slot?_eq_some_iff.mp hp
      rw [hclose] at heq
      obtain ⟨tail, rfl⟩ := eq_append_of_escaped hname.plain heq
      rw [slot?_eq_some_iff.mpr ⟨hname, (hclose _ tail).symm⟩] at hslot
      cases hslot

/-- A piece in a printed string. -/
def Piece.escaped : Piece → List Piece
  | .char c => (escapeChar c).map .char
  | .slot name => [.slot name]

/-- **The pieces of a printed string** are those of the text, with the same slots. -/
theorem pieces_escaped (cs rest : List Char) :
    pieces (cs.flatMap escapeChar ++ '"' :: rest) =
      (pieces cs).flatMap Piece.escaped ++ .char '"' :: pieces rest := by
  fun_induction pieces cs with
  | case1 => exact pieces_char (by decide) rest
  | case2 cs name after hslot ih =>
      obtain ⟨hname, rfl⟩ := slot?_eq_some_iff.mp hslot
      have hslot' := (slot?_eq_some_iff.mp ((slot?_escaped _ rest).trans (congrArg _ hslot))).2
      rw [List.flatMap_cons, List.flatMap_cons, List.append_assoc, hslot', List.append_assoc, ← ih]
      exact pieces_slot hname _
  | case3 cs hslot ih =>
      have hslot' : slot? (cs.flatMap escapeChar ++ '"' :: rest) = none := by
        rw [slot?_escaped, hslot]; rfl
      rw [List.flatMap_cons, List.flatMap_cons, List.append_assoc, List.append_assoc, ← ih]
      exact pieces_brace hslot'
  | case4 c cs hc ih =>
      have hbrace : '{' ∉ escapeChar c := by
        rcases escapeChar_cases c with h | ⟨tail, h, htail⟩ <;> rw [h]
        · exact fun h => hc (List.mem_singleton.mp h).symm
        · exact fun h => htail ((List.mem_cons.mp h).resolve_left (by decide))
      rw [List.flatMap_cons, List.flatMap_cons, List.append_assoc, List.append_assoc, ← ih,
        pieces_append hbrace]
      rfl

/-! ### Filling -/

/-- Pieces are filled one after the other. -/
theorem fillPieces_append (ps qs : List Piece) :
    fillPieces vars (ps ++ qs) = do
      let here ← fillPieces vars ps
      let after ← fillPieces vars qs
      return here ++ after := by
  induction ps with
  | nil =>
      change fillPieces vars qs = (fillPieces vars qs >>= pure)
      rw [bind_pure]
  | cons p ps ih =>
      rw [List.cons_append, fillPieces, fillPieces, ih]
      simp only [bind_assoc, pure_bind, List.append_assoc]

theorem fillPieces_chars (cs : List Char) : fillPieces vars (cs.map .char) = .ok cs := by
  induction cs with
  | nil => rfl
  | cons c cs ih =>
      rw [List.map_cons, fillPieces, ih]
      rfl

/-- The variable of the name, if there is one that can be shown, is shown without quotes,
backslashes and controls. -/
def ShownPlainly (vars : Fields) (name : List Char) : Prop :=
  ∀ v s, vars.get? (String.ofList name) = some v → v.display = .ok s →
    ∀ c ∈ s.toList, c ≠ '"' ∧ c ≠ '\\' ∧ 0x20 ≤ c.toNat

/-- What is filled in for a slot stands for itself in strings. -/
theorem escaped_of_filled {name filled : List Char} (hname : IsName name)
    (h : ShownPlainly vars name) (hfilled : (Piece.slot name).filled vars = .ok filled) :
    filled.flatMap escapeChar = filled := by
  unfold Piece.filled at hfilled
  dsimp only at hfilled
  split at hfilled
  · next v hv =>
    obtain ⟨s, hs, rfl⟩ := Json.map_eq_ok.mp hfilled
    exact flatMap_escapeChar fun c hc => Json.escapeChar_eq_self_iff.mpr (h v s hv hs c hc)
  · cases hfilled
    exact flatMap_escapeChar (List.forall_mem_cons.mpr ⟨rfl, hname.plain⟩)

/-- Filling a printed string prints what the text is filled to. -/
theorem fillPieces_escaped (h : ∀ name, .slot name ∈ ps → IsName name ∧ ShownPlainly vars name) :
    fillPieces vars (ps.flatMap Piece.escaped) = (fillPieces vars ps).map
      (List.flatMap escapeChar) := by
  induction ps with
  | nil => rfl
  | cons p ps ih =>
      have ih := ih fun name hname => h name (List.mem_cons_of_mem _ hname)
      rw [List.flatMap_cons, fillPieces_append, ih, fillPieces]
      cases p with
      | char c =>
          rw [Piece.escaped, fillPieces_chars]
          cases fillPieces vars ps <;>
            simp [Piece.filled, Except.map, bind, Except.bind, pure, Except.pure]
      | slot name =>
          obtain ⟨hname, hplain⟩ := h name List.mem_cons_self
          rw [Piece.escaped, fillPieces, fillPieces]
          cases hfilled : (Piece.slot name).filled vars with
          | error f => rfl
          | ok filled =>
              have hescaped := escaped_of_filled hname hplain hfilled
              cases fillPieces vars ps <;>
                simp [Except.map, bind, Except.bind, pure, Except.pure, hescaped]

/-- What the text is filled to, whatever comes after it. -/
def Fills (vars : Fields) (text : List Char) (filled : Except Fault (List Char)) : Prop :=
  ∀ rest, fillPieces vars (pieces (text ++ rest)) = do
    let here ← filled
    let after ← fillPieces vars (pieces rest)
    return here ++ after

variable {text more : List Char} {filled : Except Fault (List Char)}
variable {α β γ : Type} {r : Except Fault α} {r' : Except Fault β} {f : α → List Char}
  {g : β → List Char}

/-- Texts that are filled side by side. -/
theorem Fills.append {join : α → β → γ} {k : γ → List Char} (h : Fills vars text (r.map f))
    (hmore : Fills vars more (r'.map g)) (hjoin : ∀ a b, r' = .ok b → k (join a b) = f a ++ g b) :
    Fills vars (text ++ more) ((do let a ← r; let b ← r'; return join a b).map k) := by
  intro rest
  rw [List.append_assoc, h, hmore]
  cases r with
  | error e => rfl
  | ok a =>
      cases r' with
      | error e => rfl
      | ok b =>
          have hk := hjoin a b rfl
          simp only [Except.map, bind, Except.bind, pure, Except.pure, hk]
          cases fillPieces vars (pieces rest) with
          | error e => rfl
          | ok after => simp only [List.append_assoc]

/-- A text may be followed by one that is filled with itself. -/
theorem Fills.before (h : Fills vars text (r.map f)) (hmore : Fills vars more (.ok more)) :
    Fills vars (text ++ more) (r.map fun a => f a ++ more) := by
  have hboth := @Fills.append _ _ _ _ _ _ r (.ok ()) f (fun _ => more) (fun a _ => a)
    (fun a => f a ++ more) h hmore
    fun _ _ _ => rfl
  cases r <;> exact hboth

/-- A text may follow one that is filled with itself. -/
theorem Fills.after (hmore : Fills vars more (r.map f)) (h : Fills vars text (.ok text)) :
    Fills vars (text ++ more) (r.map fun a => text ++ f a) := by
  have hboth := @Fills.append _ _ _ _ _ _ (.ok ()) r (fun _ => text) f (fun _ b => b)
    (fun b => text ++ f b) h hmore
    fun _ _ _ => rfl
  cases r <;> exact hboth

/-- A text that is filled on its own. -/
theorem Fills.fill (h : Fills vars text (r.map f)) :
    fill (String.ofList text) vars = r.map fun a => String.ofList (f a) := by
  have hfill := h []
  rw [List.append_nil, pieces, fillPieces] at hfill
  rw [Template.fill, String.toList_ofList, hfill]
  cases r with
  | error e => rfl
  | ok a => exact congrArg (fun cs => Except.ok (String.ofList cs)) (List.append_nil _)

/-- A text without braces is left as it is. -/
theorem fills_self (h : '{' ∉ text) : Fills vars text (.ok text) := by
  intro rest
  rw [pieces_append h, fillPieces_append, fillPieces_chars]

/-- A slot is filled with the text of its variable. -/
theorem fills_slot (h : IsName name) :
    Fills vars ('{' :: (name ++ ['}'])) ((Piece.slot name).filled vars) := by
  intro rest
  rw [List.cons_append, List.append_assoc, List.singleton_append, pieces_slot h, fillPieces]

/-- A brace before what no name begins with is left as it is. -/
theorem Fills.brace {c : Char} (hc : Text.isWord c = false) (h : Fills vars (c :: text) filled) :
    Fills vars ('{' :: c :: text) (filled.map ('{' :: ·)) := by
  intro rest
  have hslot : slot? (c :: text ++ rest) = none := by
    refine Option.eq_none_iff_forall_ne_some.mpr fun p hp => ?_
    obtain ⟨⟨hne, hword⟩, heq⟩ := slot?_eq_some_iff.mp hp
    cases hname : p.1 with
    | nil => exact hne hname
    | cons d name =>
        rw [hname] at heq hword
        obtain ⟨rfl, -⟩ := List.cons.inj heq
        exact Bool.false_ne_true (hc.symm.trans (hword c List.mem_cons_self))
  rw [List.cons_append, pieces_brace hslot, fillPieces, h]
  cases filled with
  | error f => rfl
  | ok here => cases fillPieces vars (pieces rest) <;> rfl

/-- The name of a slot. -/
def Piece.name? : Piece → Option (List Char)
  | .char _ => none
  | .slot name => some name

/-- The names of the slots of a text. -/
def slots (text : String) : List (List Char) := (pieces text.toList).filterMap Piece.name?

/-- The slots of a text are those among its pieces. -/
theorem mem_slots {text : String} : name ∈ slots text ↔ .slot name ∈ pieces text.toList := by
  rw [slots, List.mem_filterMap]
  constructor
  · rintro ⟨p, hp, hname⟩
    cases p with
    | char c => cases hname
    | slot other =>
        cases hname
        exact hp
  · exact fun h => ⟨_, h, rfl⟩

/-- A text without an opening brace has no slots. -/
theorem slots_of_brace_notMem {text : String} (h : '{' ∉ text.toList) : slots text = [] := by
  refine List.eq_nil_iff_forall_not_mem.mpr fun name hname => ?_
  have hpieces := pieces_append h []
  rw [List.append_nil, pieces, List.append_nil] at hpieces
  rw [mem_slots, hpieces] at hname
  obtain ⟨c, -, hc⟩ := List.mem_map.mp hname
  cases hc

/-- A printed string is filled to the string of the filled text. -/
theorem fills_printText {s : String} (h : ∀ name ∈ slots s, ShownPlainly vars name) :
    Fills vars (Json.printText s) ((fill s vars).map Json.printText) := by
  intro rest
  have hpieces : pieces (Json.printText s ++ rest) =
      .char '"' :: ((pieces s.toList).flatMap Piece.escaped ++ .char '"' :: pieces rest) := by
    rw [← pieces_escaped, ← pieces_char (by decide), Json.printText]
    simp only [List.cons_append, List.append_assoc, List.nil_append]
  have hescaped := fillPieces_escaped fun name hname =>
    ⟨isName_of_mem hname, h name (mem_slots.mpr hname)⟩
  rw [hpieces, fillPieces, fillPieces_append, hescaped, fillPieces, fill]
  cases fillPieces vars (pieces s.toList) <;> cases fillPieces vars (pieces rest) <;>
    simp [Piece.filled, Json.printText, Except.map, bind, Except.bind, pure, Except.pure]

/-- Pieces without slots are filled with themselves. -/
theorem fillPieces_of_forall_notMem (h : ∀ name, .slot name ∉ ps) :
    fillPieces vars ps = .ok (ps.flatMap Piece.written) := by
  induction ps with
  | nil => rfl
  | cons p ps ih =>
      rw [fillPieces, ih fun name hname => h name (List.mem_cons_of_mem _ hname)]
      cases p with
      | char c => rfl
      | slot name => exact absurd List.mem_cons_self (h name)

/-- A text without slots stays as it is. -/
theorem fill_of_slots {s : String} (h : slots s = []) : fill s vars = .ok s := by
  have hnone (name : List Char) : .slot name ∉ pieces s.toList := fun hname =>
    List.not_mem_nil (h ▸ mem_slots.mpr hname)
  rw [fill, fillPieces_of_forall_notMem hnone, flatMap_written_pieces]
  exact congrArg Except.ok String.ofList_toList

/-! ### Texts of numbers -/

open Json (Style print printItems printFields)

theorem brace_notMem_toDigits (n : Nat) : '{' ∉ Nat.toDigits 10 n := fun h =>
  absurd (Nat.isDigit_of_mem_toDigits (by decide) (by decide) h) (by decide)

theorem brace_notMem_intText (n : Int) : '{' ∉ (Number.intText n).toList := by
  rw [Json.toList_intText, List.mem_append, not_or]
  exact ⟨by split <;> decide, brace_notMem_toDigits _⟩

theorem brace_notMem_trimZeros {ds : List Char} (h : '{' ∉ ds) : '{' ∉ Binary64.trimZeros ds := by
  unfold Binary64.trimZeros
  split
  · decide
  · next kept _ =>
    intro hmem
    exact h (List.mem_reverse.mp ((List.dropWhile_sublist _).subset (List.mem_reverse.mp hmem)))

theorem brace_notMem_layout {ds : List Char} (h : '{' ∉ ds) (point : Int) :
    '{' ∉ (Binary64.layout ds point).toList := by
  have htake (n : Nat) : '{' ∉ ds.take n := fun hmem => h (List.mem_of_mem_take hmem)
  have hdrop (n : Nat) : '{' ∉ ds.drop n := fun hmem => h (List.mem_of_mem_drop hmem)
  have hzeros (n : Nat) : '{' ∉ ("".pushn '0' n).toList := by
    rw [Number.toList_pushn]
    exact fun hmem => absurd (List.eq_of_mem_replicate hmem) (by decide)
  have hpad (n : Nat) : '{' ∉ (Number.padZeros 2 n).toList := by
    rw [Number.toList_padZeros]
    exact fun hmem => absurd (Number.isDigit_of_mem_padded hmem) (by decide)
  unfold Binary64.layout
  dsimp only
  split_ifs <;> simp only [String.toList_append, String.toList_ofList, List.mem_append, not_or]
  · exact ⟨⟨by decide, hzeros _⟩, h⟩
  · exact ⟨⟨h, hzeros _⟩, by decide⟩
  · exact ⟨⟨htake _, by decide⟩, hdrop _⟩
  · exact ⟨⟨⟨htake 1, by decide⟩, by decide⟩, hpad _⟩
  · exact ⟨⟨⟨htake 1, by decide⟩, by decide⟩, hpad _⟩
  · exact ⟨⟨⟨htake 1, by decide, hdrop 1⟩, by decide⟩, hpad _⟩
  · exact ⟨⟨⟨htake 1, by decide, hdrop 1⟩, by decide⟩, hpad _⟩

/-- No brace opens in the text of a number. -/
theorem brace_notMem_printFloat (x : Binary64) : '{' ∉ Json.printFloat x := by
  cases x with
  | nan => decide
  | infinite negative => cases negative <;> decide
  | finite negative r hr =>
      rw [Json.printFloat_finite, List.mem_append, not_or]
      refine ⟨by split <;> decide, ?_⟩
      unfold Binary64.magnitudeText
      split
      · decide
      · exact brace_notMem_layout (brace_notMem_trimZeros (brace_notMem_toDigits _)) _

end Parley.Template

namespace Parley

open Template (slots)

mutual

/-- The value is a template: the slots of its texts are among the names, and the names of its
objects have none. -/
def Value.IsTemplate (among : List Char → Prop) : Value → Prop
  | .text s => ∀ name ∈ slots s, among name
  | .list items => Value.AreTemplates among items
  | .object fields => Value.NameTemplates among fields
  | _ => True

/-- The same of a list. -/
def Value.AreTemplates (among : List Char → Prop) : List Value → Prop
  | [] => True
  | v :: rest => v.IsTemplate among ∧ Value.AreTemplates among rest

/-- The same of entries. -/
def Value.NameTemplates (among : List Char → Prop) : List (String × Value) → Prop
  | [] => True
  | (k, v) :: rest => slots k = [] ∧ v.IsTemplate among ∧ Value.NameTemplates among rest

end

end Parley

namespace Parley.Template

open Json (Style print printItems printFields)

variable {st : Style}

/-! ### Filling a document -/

/-- No brace opens in a separator. -/
theorem brace_notMem_separator {sign : Char} {separator : List Char} (hsign : sign ≠ '{')
    (h : ∃ blanks, separator = sign :: blanks ∧ Json.IsBlanks blanks) : '{' ∉ separator := by
  obtain ⟨blanks, rfl, hblanks⟩ := h
  rw [List.mem_cons, not_or]
  exact ⟨hsign.symm, fun hmem => absurd (hblanks _ hmem) (by decide)⟩

/-- What begins the entries of an object or ends it begins no name. -/
theorem first_printFields (st : Style) (fields : List (String × Value)) :
    ∃ c text, printFields st fields ++ ['}'] = c :: text ∧ Text.isWord c = false := by
  match fields with
  | [] => exact ⟨'}', [], rfl, by decide +kernel⟩
  | [(k, v)] => exact ⟨'"', _, rfl, by decide +kernel⟩
  | (k, v) :: f :: rest => exact ⟨'"', _, rfl, by decide +kernel⟩

variable {v : Value}

/-- An entry is filled in its value, when its name has no slots. -/
theorem fills_entry {name : String} (hst : st.IsPlain) (hname : slots name = [])
    (hv : Fills vars (print st v) ((fillLeaves vars v).map (print st))) :
    Fills vars (Json.printText name ++ st.afterName ++ print st v)
      ((fillLeaves vars v).map fun w => Json.printText name ++ st.afterName ++ print st w) := by
  have hprinted : Fills vars (Json.printText name) (.ok (Json.printText name)) := by
    have hfill := @fills_printText vars name (hname ▸ List.forall_mem_nil _)
    rwa [fill_of_slots hname] at hfill
  have hcolon : Fills vars st.afterName (.ok st.afterName) :=
    fills_self (brace_notMem_separator (by decide) hst.name)
  exact hv.after (@Fills.before _ _ _ _ (.ok ()) (fun _ => _) hprinted hcolon)

mutual

/-- A printed value is filled to the printed filled value. -/
theorem fills_print (hst : st.IsPlain) : ∀ v : Value, v.IsTemplate (ShownPlainly vars) →
    Fills vars (print st v) ((fillLeaves vars v).map (print st))
  | .null, _ => fills_self (show '{' ∉ "null".toList by decide)
  | .bool b, _ => fills_self (show '{' ∉ (if b then "true" else "false").toList by
    cases b <;> decide)
  | .int n, _ => fills_self (brace_notMem_intText n)
  | .float x, _ => fills_self (brace_notMem_printFloat x)
  | .text s, h => by
    have hs := fills_printText h
    rw [fillLeaves]
    cases hfill : fill s vars <;> rw [hfill] at hs <;> exact hs
  | .list items, h => by
    have hitems := (fills_printItems hst items h).before (fills_self (show '{' ∉ [']'] by decide))
    have hlist := hitems.after (fills_self (show '{' ∉ ['['] by decide))
    rw [fillLeaves]
    cases hfill : fillItems vars items <;> rw [hfill] at hlist <;> exact hlist
  | .object fields, h => by
    have hfields := (fills_printFields hst fields h).before
      (fills_self (show '{' ∉ ['}'] by decide))
    -- the brace of an object opens no slot
    obtain ⟨c, text, heq, hc⟩ := first_printFields st fields
    rw [heq] at hfields
    have hobject := hfields.brace hc
    rw [← heq] at hobject
    rw [fillLeaves]
    cases hfill : fillFields vars fields <;> rw [hfill] at hobject <;> exact hobject

/-- The text of a list is filled as its items are. -/
theorem fills_printItems (hst : st.IsPlain) :
    ∀ items : List Value, Value.AreTemplates (ShownPlainly vars) items →
    Fills vars (printItems st items) ((fillItems vars items).map (printItems st))
  | [], _ => fills_self List.not_mem_nil
  | [v], h => by
    have hv := fills_print hst v h.1
    rw [fillItems]
    cases hfill : fillLeaves vars v <;> rw [hfill] at hv <;> exact hv
  | v :: w :: rest, h => by
    have hcomma : Fills vars st.afterItem (.ok st.afterItem) :=
      fills_self (brace_notMem_separator (by decide) hst.item)
    refine ((fills_print hst v h.1).before hcomma).append (fills_printItems hst (w :: rest) h.2)
      fun v' items hitems => ?_
    obtain ⟨w', -, hrest⟩ := Json.bind_eq_ok.mp hitems
    obtain ⟨rest', -, heq⟩ := Json.bind_eq_ok.mp hrest
    cases heq
    rfl

/-- The text of an object is filled as its entries are. -/
theorem fills_printFields (hst : st.IsPlain) : ∀ fields : List (String × Value),
    Value.NameTemplates (ShownPlainly vars) fields →
    Fills vars (printFields st fields) ((fillFields vars fields).map (printFields st))
  | [], _ => fills_self List.not_mem_nil
  | [(k, v)], h => by
    have hentry := fills_entry hst h.1 (fills_print hst v h.2.1)
    rw [fillFields]
    cases hfill : fillLeaves vars v <;> rw [hfill] at hentry <;> exact hentry
  | (k, v) :: (k', w) :: rest, h => by
    have hcomma : Fills vars st.afterItem (.ok st.afterItem) :=
      fills_self (brace_notMem_separator (by decide) hst.item)
    refine ((fills_entry hst h.1 (fills_print hst v h.2.1)).before hcomma).append
      (fills_printFields hst ((k', w) :: rest) h.2.2) fun v' fields hfields => ?_
    obtain ⟨w', -, hrest⟩ := Json.bind_eq_ok.mp hfields
    obtain ⟨rest', -, heq⟩ := Json.bind_eq_ok.mp hrest
    cases heq
    rfl

end

/-- **Filling the text of a document gives the text of the filled document**, and where one fails
the other does. -/
theorem fill_printed (hst : st.IsPlain) (h : v.IsTemplate (ShownPlainly vars)) :
    fill (String.ofList (print st v)) vars = (fillLeaves vars v).map fun w =>
      String.ofList (print st w) :=
  (fills_print hst v h).fill

mutual

/-- Filling keeps the names and the numbers of a value. -/
theorem legible_of_fillLeaves : ∀ {v w : Value}, fillLeaves vars v = .ok w → v.Legible → w.Legible
  | .null, _, h, hv | .bool _, _, h, hv | .int _, _, h, hv | .float _, _, h, hv => by
    cases h
    exact hv
  | .text s, w, h, _ => by
    obtain ⟨t, -, rfl⟩ := Json.map_eq_ok.mp h
    exact Value.legible_text t
  | .list items, w, h, hv => by
    obtain ⟨items', hitems, rfl⟩ := Json.map_eq_ok.mp h
    exact Value.legible_list.mpr (legible_of_fillItems hitems (Value.legible_list.mp hv))
  | .object fields, w, h, hv => by
    obtain ⟨fields', hfields, rfl⟩ := Json.map_eq_ok.mp h
    obtain ⟨hnames, hlegible⟩ := legible_of_fillFields hfields
    obtain ⟨hnodup, hall⟩ := Value.legible_object.mp hv
    exact Value.legible_object.mpr ⟨hnames ▸ hnodup, hlegible hall⟩

/-- Legible items stay legible when they are filled. -/
theorem legible_of_fillItems : ∀ {items ws : List Value}, fillItems vars items = .ok ws →
    (∀ v ∈ items, v.Legible) → ∀ w ∈ ws, w.Legible
  | [], _, h, _ => by
    cases h
    exact List.forall_mem_nil _
  | v :: rest, ws, h, hv => by
    obtain ⟨w, hw, h⟩ := Json.bind_eq_ok.mp h
    obtain ⟨ws', hws, h⟩ := Json.bind_eq_ok.mp h
    cases h
    obtain ⟨hv, hrest⟩ := List.forall_mem_cons.mp hv
    exact List.forall_mem_cons.mpr ⟨legible_of_fillLeaves hw hv, legible_of_fillItems hws hrest⟩

/-- Entries keep their names when they are filled, and stay legible. -/
theorem legible_of_fillFields :
    ∀ {fields gs : List (String × Value)}, fillFields vars fields = .ok gs →
    Entries.names gs = Entries.names fields ∧ ((∀ e ∈ fields, e.2.Legible) → ∀ e ∈ gs, e.2.Legible)
  | [], _, h => by
    cases h
    exact ⟨rfl, fun _ => List.forall_mem_nil _⟩
  | (k, v) :: rest, gs, h => by
    obtain ⟨w, hw, h⟩ := Json.bind_eq_ok.mp h
    obtain ⟨gs', hgs, h⟩ := Json.bind_eq_ok.mp h
    cases h
    obtain ⟨hnames, hlegible⟩ := legible_of_fillFields hgs
    refine ⟨congrArg (k :: ·) hnames, fun hv => ?_⟩
    obtain ⟨hv, hrest⟩ := List.forall_mem_cons.mp hv
    exact List.forall_mem_cons.mpr ⟨legible_of_fillLeaves hw hv, hlegible hrest⟩

end

end Parley.Template
