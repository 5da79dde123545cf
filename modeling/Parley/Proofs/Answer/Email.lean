import Parley.Answer
import Parley.Proofs.Pattern.Ways
import Parley.Proofs.Text.Sigma

/-!
# E-mail addresses

There are many ways through the pattern of e-mail addresses: a dot belongs to the parts on its two
sides as well, so a domain with several dots is split in several places, and a text ends before its
last line break as well.  All ways together accept just what `IsAddress` describes (`isEmail_iff`).
The line break makes no difference, since an answer is matched without the blanks at its ends.
-/

namespace Parley.Answer

open Pattern (Place Node Member)
open Text (isBlank strip stripBy)

/-- A name and a domain on the two sides of the only `@`, nothing blank, and a dot between two other
characters of the domain. -/
def IsAddress (cs : List Char) : Prop :=
  ∃ name domain, cs = name ++ '@' :: domain ∧ name ≠ [] ∧ '@' ∉ name ∧ '@' ∉ domain ∧
    (∀ c ∈ cs, isBlank c = false) ∧ ∃ host top, domain = host ++ '.' :: top ∧ host ≠ [] ∧ top ≠ []

/-- What a part of the pattern stands for. -/
structure IsPart (cs : List Char) : Prop where
  given : cs ≠ []
  chars : ∀ c ∈ cs, c ≠ '@' ∧ isBlank c = false

variable {p q : Place}

/-! ### The ways through the pattern -/

theorem leads_one {c : Char} : (Node.oneOf false [.one c.toNat]).Leads {} p q ↔ p.Passes [c] q := by
  have htest (d : Char) :
      ([Member.one c.toNat].any (Member.holds {} d) != false) = true ↔ d = c := by
    simp [Member.holds, Pattern.codesFor, Char.toNat_inj, eq_comm]
  constructor
  · rintro ⟨d, hd, h⟩
    obtain rfl := (htest d).mp hd
    exact h
  · exact fun h => ⟨c, (htest c).mpr rfl, h⟩

theorem leads_addressPart : addressPart.Leads {} p q ↔ ∃ cs, IsPart cs ∧ p.Passes cs q := by
  have htest (c : Char) :
    ([Member.one '@'.toNat, .category .blank false].any (Member.holds {} c) != true) = true ↔
      c ≠ '@' ∧ isBlank c = false := by
    have hat : 64 = c.toNat ↔ c = '@' := (@Char.toNat_inj '@' c).trans eq_comm
    simp [Member.holds, Pattern.codesFor, Pattern.Category.holds, hat]
  constructor
  · rintro ⟨k, hk, -, t⟩
    obtain ⟨cs, rfl, hcs, h⟩ := Place.turns_takes.mp t
    exact ⟨cs, ⟨List.ne_nil_of_length_pos hk, fun c hc => (htest c).mp (hcs c hc)⟩, h⟩
  · rintro ⟨cs, ⟨hne, hcs⟩, h⟩
    exact ⟨cs.length, List.length_pos_of_ne_nil hne, nofun,
      Place.turns_takes.mpr ⟨cs, rfl, fun c hc => (htest c).mpr (hcs c hc), h⟩⟩

/-- A way through the pattern passes three parts with `@` and a dot between them, and stops at the
end of the text or at its last line break. -/
theorem leads_emailPattern {cs : List Char} :
    emailPattern.node.Leads {} ⟨[], cs, []⟩ q ↔ ∃ name host top,
    IsPart name ∧ IsPart host ∧ IsPart top ∧
      Place.Passes ⟨[], cs, []⟩ (name ++ (['@'] ++ (host ++ (['.'] ++ top)))) q ∧
      (q.after = [] ∨ q.after = ['\n']) := by
  have hend (r : Place) : Pattern.Anchor.lineEnd.holds {} r = true ↔ r.after = [] ∨
      r.after = ['\n'] := by
    simp [Pattern.Anchor.holds]
  constructor
  · rintro ⟨_, ⟨-, rfl⟩, r₁, hname, r₂, hat, r₃, hhost, r₄, hdot, r₅, htop, r₆, ⟨hstop, rfl⟩, rfl⟩
    obtain ⟨name, hname, h₁⟩ := leads_addressPart.mp hname
    obtain ⟨host, hhost, h₃⟩ := leads_addressPart.mp hhost
    obtain ⟨top, htop, h₅⟩ := leads_addressPart.mp htop
    have h₂ := leads_one.mp hat
    have h₄ := leads_one.mp hdot
    exact ⟨name, host, top, hname, hhost, htop, h₁.trans (h₂.trans (h₃.trans (h₄.trans h₅))),
      (hend _).mp hstop⟩
  · rintro ⟨name, host, top, hname, hhost, htop, h, hstop⟩
    obtain ⟨r₁, h₁, h⟩ := Place.passes_append.mp h
    obtain ⟨r₂, h₂, h⟩ := Place.passes_append.mp h
    obtain ⟨r₃, h₃, h⟩ := Place.passes_append.mp h
    obtain ⟨r₄, h₄, h₅⟩ := Place.passes_append.mp h
    exact ⟨_, ⟨rfl, rfl⟩, r₁, leads_addressPart.mpr ⟨name, hname, h₁⟩, r₂, leads_one.mpr h₂,
      r₃, leads_addressPart.mpr ⟨host, hhost, h₃⟩, r₄, leads_one.mpr h₄,
      q, leads_addressPart.mpr ⟨top, htop, h₅⟩, q, ⟨(hend q).mpr hstop, rfl⟩, rfl⟩

/-- The pattern matches three parts that are joined so, up to the end of the text or a last line
break. -/
theorem begins_emailPattern {s : String} : emailPattern.begins s = true ↔ ∃ name host top stop,
    IsPart name ∧ IsPart host ∧ IsPart top ∧ (stop = [] ∨ stop = ['\n']) ∧
      s.toList = name ++ '@' :: (host ++ '.' :: top) ++ stop := by
  have hplain : emailPattern.node.Plain := by simp [emailPattern, addressPart, Node.Plain]
  refine (hplain.finds {} some ⟨[], s.toList, []⟩).trans ?_
  constructor
  · rintro ⟨q, h, -⟩
    obtain ⟨name, host, top, hname, hhost, htop, h, hstop⟩ := leads_emailPattern.mp h
    exact ⟨name, host, top, q.after, hname, hhost, htop, hstop, by simpa using h.after⟩
  · rintro ⟨name, host, top, stop, hname, hhost, htop, hstop, hs⟩
    refine ⟨⟨(name ++ '@' :: (host ++ '.' :: top)).reverse, stop, []⟩, leads_emailPattern.mpr
      ⟨name, host, top, hname, hhost, htop, ⟨?_, ?_, rfl⟩, hstop⟩, rfl⟩
    · simpa using hs
    · simp

/-! ### Addresses -/

/-- Three parts with `@` and a dot between them are an address, and an address is split so in some
way. -/
theorem isAddress_iff {cs : List Char} : IsAddress cs ↔ ∃ name host top,
    IsPart name ∧ IsPart host ∧ IsPart top ∧ cs = name ++ '@' :: (host ++ '.' :: top) := by
  constructor
  · rintro ⟨name, domain, rfl, hname, hat, hat', hblank, host, top, rfl, hhost, htop⟩
    refine ⟨name, host, top, ⟨hname, fun c hc => ⟨?_, hblank c (by simp [hc])⟩⟩,
      ⟨hhost, fun c hc => ⟨?_, hblank c (by simp [hc])⟩⟩,
      ⟨htop, fun c hc => ⟨?_, hblank c (by simp [hc])⟩⟩, rfl⟩
    · exact ne_of_mem_of_not_mem hc hat
    · exact ne_of_mem_of_not_mem (List.mem_append_left _ hc) hat'
    · exact ne_of_mem_of_not_mem (List.mem_append_right _ (List.mem_cons_of_mem _ hc)) hat'
  · rintro ⟨name, host, top, hname, hhost, htop, rfl⟩
    have hnone {part : List Char} (h : IsPart part) : '@' ∉ part := fun hc => (h.chars _ hc).1 rfl
    refine ⟨name, host ++ '.' :: top, rfl, hname.given, hnone hname, ?_, ?_, host, top, rfl,
      hhost.given, htop.given⟩
    · simp [hnone hhost, hnone htop]
    · simp only [List.mem_append, List.mem_cons]
      rintro c (hc | rfl | hc | rfl | hc)
      · exact (hname.chars c hc).2
      · decide
      · exact (hhost.chars c hc).2
      · decide
      · exact (htop.chars c hc).2

/-- **A text is an e-mail address** just when it is, without the blanks at its ends, a name and a
domain on the two sides of its only `@`, with nothing blank in it and a dot in the domain that is
neither its first character nor its last. -/
theorem isEmail_iff (v : String) : isEmail v = true ↔ IsAddress (strip v).toList := by
  rw [isEmail, begins_emailPattern, isAddress_iff]
  constructor
  · rintro ⟨name, host, top, stop, hname, hhost, htop, rfl | rfl, h⟩
    · exact ⟨name, host, top, hname, hhost, htop, by simpa using h⟩
    · -- a stripped text does not end with a line break
      have hlist : stripBy isBlank v.toList = name ++ '@' :: (host ++ '.' :: top) ++ ['\n'] := by
        simpa [strip] using h
      have hne : stripBy isBlank v.toList ≠ [] := by simp [hlist]
      have hlast := Text.getLast_stripBy hne
      simp only [hlist, List.getLast_append_singleton] at hlast
      exact absurd hlast (by decide)
  · rintro ⟨name, host, top, hname, hhost, htop, h⟩
    exact ⟨name, host, top, [], hname, hhost, htop, .inl rfl, by simpa using h⟩

/-- Blanks around an address do not count, and its host has no empty parts. -/
example : isEmail " ana@mail.example.com\n" = true ∧ isEmail "ana@.com" = false := by decide +kernel

end Parley.Answer
