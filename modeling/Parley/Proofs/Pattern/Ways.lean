import Parley.Pattern.Match

/-!
# The ways through a pattern

A matcher tries one way through a pattern after the other and stops at the first one that what
follows accepts.  `n.Leads o p q` says, without an order, that some way through the node leads from
the place `p` to the place `q`.  A matcher finds a way that is accepted whenever there is one
(`Node.Plain.finds`), as long as nothing in the pattern remembers what was matched, looks around or
settles for its first match (`Node.Plain`).  So neither greed nor laziness loses a match, and
neither does a repetition that gives up after a turn that made no way.

The induction is on the node.  What a repetition needs is said of any matcher that finds the ways of
a relation (`Finds`): turns that make no way can be left out (`Turns.proper`), and each of the
others leaves fewer characters, so that those it is given are enough.
-/

namespace Parley.Pattern

variable {o : Options} {p q r : Place}

/-! ### Ways -/

/-- The characters `cs` lead from one place to the other. -/
structure Place.Passes (p : Place) (cs : List Char) (q : Place) : Prop where
  after : p.after = cs ++ q.after
  before : q.before = cs.reverse ++ p.before
  groups : q.groups = p.groups

/-- One character that the test takes leads from one place to the other. -/
def Place.Takes (test : Char → Bool) (p q : Place) : Prop := ∃ c, test c = true ∧ p.Passes [c] q

/-- So many turns of `R`, one after the other. -/
inductive Turns (R : Place → Place → Prop) : Nat → Place → Place → Prop where
  | none (p : Place) : Turns R 0 p p
  | more {k : Nat} {p r q : Place} (h : R p r) (t : Turns R k r q) : Turns R (k + 1) p q

/-- A way through the node leads from one place to the other. -/
def Node.Leads (o : Options) : Node → Place → Place → Prop
  | .empty, p, q => q = p
  | .any, p, q => p.Takes (fun c => o.dotAll || c != '\n') q
  | .oneOf negated members, p, q => p.Takes (fun c => members.any (Member.holds o c) != negated) q
  | .anchor place, p, q => place.holds o p = true ∧ q = p
  | .sequence a b, p, q => ∃ r, a.Leads o p r ∧ b.Leads o r q
  | .choice a b, p, q => a.Leads o p q ∨ b.Leads o p q
  | .repetition _ least most body, p, q =>
    ∃ k, least ≤ k ∧ (∀ m ∈ most, k ≤ max least m) ∧ Turns (body.Leads o) k p q
  | .under change body, p, q => body.Leads (o.apply change) p q
  | .capture .., _, _ | .echo _, _, _ | .look .., _, _ | .atomic _, _, _ | .whether ..,
      _, _ => False

/-- Nothing in the node remembers what was matched, looks around or settles for its first match. -/
def Node.Plain : Node → Prop
  | .empty | .any | .oneOf .. | .anchor _ => True
  | .sequence a b | .choice a b => a.Plain ∧ b.Plain
  | .repetition _ _ _ body | .under _ body => body.Plain
  | .capture .. | .echo _ | .look .. | .atomic _ | .whether .. => False

/-! ### Places -/

theorem Place.passes_nil : p.Passes [] q ↔ q = p := by
  constructor
  · rintro ⟨ha, hb, hg⟩
    cases p; cases q
    simp_all
  · rintro rfl
    exact ⟨rfl, rfl, rfl⟩

/-- A place is passed on over one text after the other. -/
theorem Place.Passes.trans {cs ds : List Char} (h : p.Passes cs r) (h' : r.Passes ds q) :
    p.Passes (cs ++ ds) q where
  after := by rw [h.after, h'.after, List.append_assoc]
  before := by rw [h'.before, h.before, List.reverse_append, List.append_assoc]
  groups := h'.groups.trans h.groups

/-- A text in two parts is passed in two parts. -/
theorem Place.passes_append {cs ds : List Char} :
    p.Passes (cs ++ ds) q ↔ ∃ r, p.Passes cs r ∧ r.Passes ds q := by
  constructor
  · rintro ⟨ha, hb, hg⟩
    refine ⟨⟨cs.reverse ++ p.before, ds ++ q.after, p.groups⟩, ⟨?_, rfl, rfl⟩, ⟨rfl, ?_, hg⟩⟩
    · rw [ha, List.append_assoc]
    · rw [hb, List.reverse_append, List.append_assoc]
  · rintro ⟨r, h, h'⟩
    exact h.trans h'

/-- A relation that goes from a place only to places further on. -/
def Forward (R : Place → Place → Prop) : Prop := ∀ p q, R p q → ∃ cs, p.Passes cs q

variable {R : Place → Place → Prop} {k : Nat}

/-- Who goes forward stays, or has less left. -/
theorem Forward.cases (hR : Forward R) (h : R p q) : q = p ∨ q.after.length < p.after.length := by
  obtain ⟨cs, hcs⟩ := hR p q h
  cases cs with
  | nil => exact .inl (Place.passes_nil.mp hcs)
  | cons c cs =>
      rw [hcs.after, List.cons_append, List.length_cons, List.length_append]
      exact .inr (by omega)

/-- Who goes forward does so in any number of turns. -/
theorem Turns.forward (hR : Forward R) (h : Turns R k p q) : ∃ cs, p.Passes cs q := by
  induction h with
  | none p => exact ⟨[], Place.passes_nil.mpr rfl⟩
  | more h _ ih =>
      obtain ⟨cs, hcs⟩ := hR _ _ h
      obtain ⟨ds, hds⟩ := ih
      exact ⟨cs ++ ds, hcs.trans hds⟩

/-- Turns are taken in two parts. -/
theorem turns_add {j : Nat} : Turns R (j + k) p q ↔ ∃ r, Turns R j p r ∧ Turns R k r q := by
  induction j generalizing p with
  | zero =>
      rw [Nat.zero_add]
      constructor
      · exact fun h => ⟨p, .none p, h⟩
      · rintro ⟨r, h, h'⟩
        cases h
        exact h'
  | succ j ih =>
      rw [Nat.succ_add]
      constructor
      · intro h
        cases h with
        | more h t =>
            obtain ⟨r, t, t'⟩ := ih.mp t
            exact ⟨r, .more h t, t'⟩
      · rintro ⟨r, h, t'⟩
        cases h with
        | more h t => exact .more h (ih.mpr ⟨r, t, t'⟩)

/-- Turns that make no way can be left out: there are none, or the first one that counts leaves
fewer characters. -/
theorem Turns.proper (hR : Forward R) (h : Turns R k p q) :
    q = p ∨ ∃ r j, R p r ∧ r.after.length < p.after.length ∧ Turns R j r q ∧ j < k := by
  induction h with
  | none p => exact .inl rfl
  | @more k p r q h t ih =>
      rcases hR.cases h with rfl | hlt
      · exact ih.imp_right fun ⟨r, j, hr, hlt, tj, hj⟩ => ⟨r, j, hr, hlt, tj, Nat.lt_succ_of_lt hj⟩
      · exact .inr ⟨r, k, h, hlt, t, Nat.lt_succ_self k⟩

/-! ### Matchers -/

/-- The matcher finds a place that is accepted just when the relation leads to one. -/
def Finds (m : Matcher) (R : Place → Place → Prop) : Prop :=
  ∀ next p, (m next p).isSome = true ↔ ∃ q, R p q ∧ (next q).isSome = true

/-- One character finds its ways. -/
theorem finds_takeOne (test : Char → Bool) : Finds (takeOne test) (Place.Takes test) := by
  intro next p
  obtain ⟨before, after, groups⟩ := p
  cases after with
  | nil =>
      constructor
      · simp [takeOne]
      · rintro ⟨q, ⟨c, -, h⟩, -⟩
        cases h.after
  | cons c rest =>
      constructor
      · intro h
        simp only [takeOne] at h
        split at h
        · next ht => exact ⟨⟨c :: before, rest, groups⟩, ⟨c, ht, rfl, rfl, rfl⟩, h⟩
        · cases h
      · rintro ⟨⟨before', after', groups'⟩, ⟨d, ht, ha, hb, hg⟩, h⟩
        dsimp only at ha hb hg
        obtain ⟨rfl, rfl⟩ := List.cons.inj ha
        subst hb hg
        simpa [takeOne, ht] using h

variable {m : Matcher}

/-- A number of turns that are required finds its ways. -/
theorem finds_required (hm : Finds m R) (k : Nat) : Finds (required m k) (Turns R k) := by
  intro next p
  induction k generalizing p with
  | zero =>
      rw [required]
      constructor
      · exact fun h => ⟨p, .none p, h⟩
      · rintro ⟨q, t, h⟩
        cases t
        exact h
  | succ k ih =>
      rw [required, hm]
      constructor
      · rintro ⟨r, hr, h⟩
        obtain ⟨q, t, h⟩ := (ih r).mp h
        exact ⟨q, .more hr t, h⟩
      · rintro ⟨q, t, h⟩
        cases t with
        | more hr t => exact ⟨_, hr, (ih _).mpr ⟨q, t, h⟩⟩

/-- What follows is tried, and one more turn unless the last one made no way or no more are allowed.
-/
theorem optional_succ_isSome (greedy : Bool) (m : Matcher) (next : Next) (fuel : Nat)
    (most since : Option Nat) (p : Place) :
    (optional greedy m next (fuel + 1) most since p).isSome = true ↔
      (next p).isSome = true ∨ most ≠ some 0 ∧ since ≠ some p.after.length ∧
        (m (optional greedy m next fuel (most.map (· - 1)) (some p.after.length)) p).isSome =
          true := by
  have hagain (x : Option Place) :
    (if most = some 0 || since = some p.after.length then none else x).isSome = true ↔
      most ≠ some 0 ∧ since ≠ some p.after.length ∧ x.isSome = true := by
    by_cases hmost : most = some 0
    · simp [hmost]
    · by_cases hsince : since = some p.after.length <;> simp [hmost, hsince]
  rw [optional]
  cases greedy with
  | false => rw [if_neg Bool.false_ne_true, Option.orElse_eq_or, Option.isSome_or,
      Bool.or_eq_true, hagain]
  | true => rw [if_pos rfl, Option.orElse_eq_or, Option.isSome_or, Bool.or_eq_true, hagain, or_comm]

/-- A turn that takes nothing is not repeated. -/
theorem optional_stalled (greedy : Bool) (m : Matcher) (next : Next) (fuel : Nat)
    (most : Option Nat) (p : Place) :
    (optional greedy m next fuel most (some p.after.length) p).isSome = true ↔
    (next p).isSome = true := by
  cases fuel with
  | zero => rfl
  | succ fuel => simp [optional_succ_isSome]

/-- All turns are tried that the bound allows and that make way. -/
theorem optional_isSome_iff (greedy : Bool) (hm : Finds m R) (hR : Forward R) (next : Next)
    {fuel : Nat} {most since : Option Nat} (hfuel : p.after.length < fuel)
    (hs : since ≠ some p.after.length) :
    (optional greedy m next fuel most since p).isSome = true ↔
      ∃ k q, (∀ b ∈ most, k ≤ b) ∧ Turns R k p q ∧ (next q).isSome = true := by
  induction fuel generalizing p most since with
  | zero => exact absurd hfuel (Nat.not_lt_zero _)
  | succ fuel ih =>
      rw [optional_succ_isSome, hm]
      constructor
      · rintro (h | ⟨hmost, -, r, hr, h⟩)
        · exact ⟨0, p, fun b _ => Nat.zero_le b, .none p, h⟩
        · rcases hR.cases hr with rfl | hlt
          -- after a turn that made no way only what follows is tried
          · exact ⟨0, r, fun b _ => Nat.zero_le b, .none r, (optional_stalled ..).mp h⟩
          · obtain ⟨k, q, hk, t, h⟩ := (ih (by omega) (by simp; omega)).mp h
            refine ⟨k + 1, q, fun b hb => ?_, .more hr t, h⟩
            have hlast : k ≤ b - 1 := hk (b - 1) (Option.mem_map_of_mem (· - 1) hb)
            have hsome : b ≠ 0 := by
              rintro rfl
              exact hmost hb
            omega
      · rintro ⟨k, q, hk, t, h⟩
        -- the matcher need not take the turns that make no way, and the others are no more than `k`
        rcases t.proper hR with rfl | ⟨r, j, hr, hlt, tj, hj⟩
        · exact .inl h
        · have hbound : ∀ b ∈ most.map (· - 1), j ≤ b := by
            intro b hb
            obtain ⟨bound, hbound, rfl⟩ := Option.map_eq_some_iff.mp hb
            exact Nat.le_sub_one_of_lt (Nat.lt_of_lt_of_le hj (hk bound hbound))
          refine .inr ⟨?_, hs, r, hr, (ih (by omega) (by simp; omega)).mpr ⟨j, q, hbound, tj, h⟩⟩
          rintro rfl
          exact absurd (hk 0 rfl) (by omega)

/-! ### Nodes -/

theorem Place.takes_forward (test : Char → Bool) :
    Forward (Place.Takes test) := fun _ _ ⟨c, _, h⟩ => ⟨[c], h⟩

/-- Whatever a pattern leads over goes forward. -/
theorem Node.leads_forward (o : Options) (n : Node) : Forward (n.Leads o) := by
  induction n generalizing o with
  | empty =>
      rintro p q rfl
      exact ⟨[], Place.passes_nil.mpr rfl⟩
  | any | oneOf negated members => exact Place.takes_forward _
  | anchor place =>
      rintro p q ⟨-, rfl⟩
      exact ⟨[], Place.passes_nil.mpr rfl⟩
  | sequence a b iha ihb =>
      rintro p q ⟨r, ha, hb⟩
      obtain ⟨cs, hcs⟩ := iha o p r ha
      obtain ⟨ds, hds⟩ := ihb o r q hb
      exact ⟨cs ++ ds, hcs.trans hds⟩
  | choice a b iha ihb => exact fun p q h => h.elim (iha o p q) (ihb o p q)
  | repetition greedy least most body ih =>
      rintro p q ⟨k, -, -, t⟩
      exact t.forward (ih o)
  | under change body ih => exact ih _
  | capture | echo | look | atomic | whether => exact fun p q h => h.elim

/-- A repetition finds its ways when its body does. -/
theorem finds_repetition {o : Options} {body : Node} (greedy : Bool) (least : Nat)
    (most : Option Nat) (hbody : Finds (body.run o) (body.Leads o)) :
    Finds ((Node.repetition greedy least most body).run o)
      ((Node.repetition greedy least most body).Leads o) := by
  intro next p
  have hrest (r : Place) :
      (optional greedy (body.run o) next (r.after.length + 2)
        (most.map (· - least)) none r).isSome = true ↔
        ∃ k q, (∀ b ∈ most.map (· - least), k ≤ b) ∧ Turns (body.Leads o) k r q ∧
            (next q).isSome = true :=
    optional_isSome_iff greedy hbody (Node.leads_forward o body) next (by omega) nofun
  rw [Node.run, finds_required hbody]
  -- the turns that must be are taken apart from the optional ones, whose bound is what they leave
  -- of `most`
  constructor
  · rintro ⟨r, t, h⟩
    obtain ⟨k, q, hk, t', h⟩ := (hrest r).mp h
    refine ⟨q, ⟨least + k, Nat.le_add_right .., fun m hm => ?_, turns_add.mpr ⟨r, t, t'⟩⟩, h⟩
    have hlast : k ≤ m - least := hk (m - least) (Option.mem_map_of_mem (· - least) hm)
    omega
  · rintro ⟨q, ⟨k, hle, hk, t⟩, h⟩
    obtain ⟨j, rfl⟩ := Nat.exists_eq_add_of_le hle
    obtain ⟨r, t, t'⟩ := turns_add.mp t
    refine ⟨r, t, (hrest r).mpr ⟨j, q, fun b hb => ?_, t', h⟩⟩
    obtain ⟨m, hm, rfl⟩ := Option.map_eq_some_iff.mp hb
    have hbound := hk m hm
    omega

/-- **A plain node is matched just when some way through it** leads to a place that is accepted. -/
theorem Node.Plain.finds {n : Node} (hn : n.Plain) (o : Options) : Finds (n.run o) (n.Leads o) := by
  induction n generalizing o with
  | empty =>
      intro next p
      simp [Node.run, Node.Leads]
  | any | oneOf negated members => exact finds_takeOne _
  | anchor place =>
      intro next p
      by_cases h : place.holds o p = true <;> simp [Node.run, Node.Leads, h]
  | sequence a b iha ihb =>
      intro next p
      rw [Node.run, iha hn.1]
      constructor
      · rintro ⟨r, ha, h⟩
        obtain ⟨q, hb, h⟩ := (ihb hn.2 o next r).mp h
        exact ⟨q, ⟨r, ha, hb⟩, h⟩
      · rintro ⟨q, ⟨r, ha, hb⟩, h⟩
        exact ⟨r, ha, (ihb hn.2 o next r).mpr ⟨q, hb, h⟩⟩
  | choice a b iha ihb =>
      intro next p
      change ((a.run o next p).orElse fun _ => b.run o next p).isSome = true ↔ _
      rw [Option.orElse_eq_or, Option.isSome_or, Bool.or_eq_true, iha hn.1, ihb hn.2]
      constructor
      · rintro (⟨q, hq, h⟩ | ⟨q, hq, h⟩)
        · exact ⟨q, .inl hq, h⟩
        · exact ⟨q, .inr hq, h⟩
      · rintro ⟨q, hq | hq, h⟩
        · exact .inl ⟨q, hq, h⟩
        · exact .inr ⟨q, hq, h⟩
  | repetition greedy least most body ih => exact finds_repetition greedy least most (ih hn o)
  | under change body ih => exact ih hn _
  | capture | echo | look | atomic | whether => exact hn.elim

/-- A run of characters of one class. -/
theorem Place.turns_takes {test : Char → Bool} {k : Nat} : Turns (Place.Takes test) k p q ↔
    ∃ cs, cs.length = k ∧ (∀ c ∈ cs, test c = true) ∧ p.Passes cs q := by
  induction k generalizing p with
  | zero =>
      constructor
      · intro t
        cases t
        exact ⟨[], rfl, List.forall_mem_nil _, Place.passes_nil.mpr rfl⟩
      · rintro ⟨cs, hlen, -, h⟩
        obtain rfl := List.eq_nil_of_length_eq_zero hlen
        obtain rfl := Place.passes_nil.mp h
        exact .none _
  | succ k ih =>
      constructor
      · intro t
        cases t with
        | more hr t =>
            obtain ⟨c, hc, h⟩ := hr
            obtain ⟨cs, hlen, hcs, h'⟩ := ih.mp t
            exact ⟨c :: cs, congrArg Nat.succ hlen, List.forall_mem_cons.mpr ⟨hc, hcs⟩, h.trans h'⟩
      · rintro ⟨cs, hlen, hcs, h⟩
        obtain ⟨c, cs, rfl⟩ := List.exists_cons_of_length_eq_add_one hlen
        obtain ⟨hc, hcs⟩ := List.forall_mem_cons.mp hcs
        obtain ⟨r, h, h'⟩ := Place.passes_append.mp (show p.Passes ([c] ++ cs) q from h)
        exact .more ⟨c, hc, h⟩ (ih.mpr ⟨cs, Nat.succ.inj hlen, hcs, h'⟩)

end Parley.Pattern
