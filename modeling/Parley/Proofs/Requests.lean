import Mathlib.Data.List.Basic
import Parley.Proofs.Program

/-!
# The requests of a program

`p.Comes log a`: the exchanges `log`, each a request and the reply to it, lead the program `p` to
the value `a`.  With the exchanges forgotten that is `p.Ends a` (`ends_iff_comes`).

`p.Leads log p'`: the exchanges lead the program to where `p'` is left.  A program in two parts is
led through the one and then the other (`leads_bind`).

`p.AsksAtMost q k`: whatever it is replied, `p` makes at most `k` requests of the kind `q`.  The
bounds of two programs add up in their sequence (`AsksAtMost.bind`), and the bound holds of the
exchanges of every run (`AsksAtMost.count_le`).

`p.AsksOnly may`: whatever it is replied, and wherever it is left, `p` makes only requests of the
kind `may`.
-/

namespace Parley.Program

variable {Op : Type} {Reply : Op → Type} {α β σ : Type}

/-- A request and the reply to it. -/
structure Exchange (Op : Type) (Reply : Op → Type) where
  op : Op
  reply : Reply op

/-! ### The exchanges that lead to a value -/

/-- The exchanges lead the program to the value. -/
inductive Comes : Program Op Reply α → List (Exchange Op Reply) → α → Prop where
  | done (a : α) : Comes (.done a) [] a
  | request {op : Op} {next : Reply op → Program Op Reply α}
      {log : List (Exchange Op Reply)} {a : α}
      (r : Reply op) (h : Comes (next r) log a) : Comes (.request op next) (⟨op, r⟩ :: log) a

variable {p : Program Op Reply α} {log : List (Exchange Op Reply)}

theorem comes_done_iff {a b : α} :
    (done a : Program Op Reply α).Comes log b ↔ log = [] ∧ b = a := by
  constructor
  · intro h
    cases h
    exact ⟨rfl, rfl⟩
  · rintro ⟨rfl, rfl⟩
    exact .done b

theorem comes_request_iff {op : Op} {next : Reply op → Program Op Reply α} {a : α} :
    (request op next).Comes log a ↔ ∃ r rest, log = ⟨op, r⟩ :: rest ∧ (next r).Comes rest a := by
  constructor
  · intro h
    cases h with
    | request r h => exact ⟨r, _, rfl, h⟩
  · rintro ⟨r, rest, rfl, h⟩
    exact .request r h

/-- A chain comes to a value when its first part comes to one, and its second part goes on from
there. -/
theorem comes_bind_iff {g : α → Program Op Reply β} {b : β} :
    (p.bind g).Comes log b ↔
      ∃ log₁ log₂ a, log = log₁ ++ log₂ ∧ p.Comes log₁ a ∧ (g a).Comes log₂ b := by
  induction p generalizing log with
  | done a =>
      constructor
      · exact fun h => ⟨[], log, a, rfl, .done a, h⟩
      · rintro ⟨log₁, log₂, a', rfl, h₁, h₂⟩
        obtain ⟨rfl, rfl⟩ := comes_done_iff.mp h₁
        exact h₂
  | request op next ih =>
      constructor
      · intro h
        obtain ⟨r, rest, rfl, hr⟩ := comes_request_iff.mp h
        obtain ⟨log₁, log₂, a, rfl, h₁, h₂⟩ := (ih r).mp hr
        exact ⟨_, log₂, a, rfl, .request r h₁, h₂⟩
      · rintro ⟨log₁, log₂, a, rfl, h₁, h₂⟩
        obtain ⟨r, rest, rfl, hr⟩ := comes_request_iff.mp h₁
        exact .request r ((ih r).mpr ⟨rest, log₂, a, rfl, hr, h₂⟩)

/-- A program ends with the values that it comes to by some exchanges. -/
theorem ends_iff_comes {a : α} : p.Ends a ↔ ∃ log, p.Comes log a := by
  constructor
  · intro h
    induction h with
    | done a => exact ⟨[], .done a⟩
    | request r _ ih =>
        obtain ⟨log, h⟩ := ih
        exact ⟨_, .request r h⟩
  · rintro ⟨log, h⟩
    induction h with
    | done a => exact .done a
    | request r _ ih => exact .request r ih

/-- No part of what leads a program to a value leads it to another. -/
theorem Comes.of_prefix {log' : List (Exchange Op Reply)} {a b : α} (h : p.Comes log a)
    (h' : p.Comes log' b) (hl : log <+: log') : log = log' ∧ a = b := by
  induction h generalizing log' with
  | done a =>
      obtain ⟨rfl, rfl⟩ := comes_done_iff.mp h'
      exact ⟨rfl, rfl⟩
  | request r _ ih =>
      cases h' with
      | request r' h' =>
          obtain ⟨he, hrest⟩ := List.cons_prefix_cons.mp hl
          cases he
          obtain ⟨rfl, rfl⟩ := ih h' hrest
          exact ⟨rfl, rfl⟩

theorem Comes.ends {a : α} (h : p.Comes log a) : p.Ends a := ends_iff_comes.mpr ⟨log, h⟩

/-- A program that makes no request has no exchanges. -/
theorem Comes.quiet {a : α} (h : p.Comes log a) (hq : p.Quiet) : log = [] := by
  cases h with
  | done => rfl
  | request => exact hq.elim

/-- The exchanges of a play. -/
def transcript (f : (op : Op) → σ → Reply op × σ) :
    Program Op Reply α → σ → List (Exchange Op Reply)
  | .done _, _ => []
  | .request op next, s => ⟨op, (f op s).1⟩ :: (next (f op s).1).transcript f (f op s).2

/-- A program comes to what it is played to, by the exchanges of the play. -/
theorem comes_play (f : (op : Op) → σ → Reply op × σ) (p : Program Op Reply α) (s : σ) :
    p.Comes (p.transcript f s) (p.play f s).1 := by
  induction p generalizing s with
  | done a => exact .done a
  | request op next ih => exact .request (f op s).1 (ih (f op s).1 (f op s).2)

/-- The replies of a play are those of who plays. -/
theorem reply_of_mem_transcript {f : (op : Op) → σ → Reply op × σ} {p : Program Op Reply α} {s : σ}
    {x : Exchange Op Reply} (h : x ∈ p.transcript f s) : ∃ s', x.reply = (f x.op s').1 := by
  induction p generalizing s with
  | done a => cases h
  | request op next ih =>
      rcases List.mem_cons.mp h with rfl | h
      · exact ⟨s, rfl⟩
      · exact ih _ h

/-! ### The exchanges that lead to another point -/

/-- The exchanges lead the program to where the other is left of it. -/
inductive Leads : Program Op Reply α → List (Exchange Op Reply) → Program Op Reply α → Prop where
  | here (p : Program Op Reply α) : Leads p [] p
  | request {op : Op} {next : Reply op → Program Op Reply α} {log : List (Exchange Op Reply)}
      {p : Program Op Reply α} (r : Reply op) (h : Leads (next r) log p) :
      Leads (.request op next) (⟨op, r⟩ :: log) p

/-- One more reply leads one step on. -/
theorem Leads.told {op : Op} {next : Reply op → Program Op Reply α}
    (h : p.Leads log (.request op next)) (r : Reply op) : p.Leads (log ++ [⟨op, r⟩]) (next r) := by
  generalize hq : Program.request op next = q at h
  induction h with
  | here p =>
      subst hq
      exact .request r (.here _)
  | request r' _ ih => exact .request r' (ih hq)

theorem leads_done_iff {a : α} {p' : Program Op Reply α} :
    (done a : Program Op Reply α).Leads log p' ↔ log = [] ∧ p' = .done a := by
  constructor
  · intro h
    cases h
    exact ⟨rfl, rfl⟩
  · rintro ⟨rfl, rfl⟩
    exact .here _

/-- A program is at its first request, or was replied to it. -/
theorem leads_request_iff {op : Op} {next : Reply op → Program Op Reply α}
    {p' : Program Op Reply α} :
    (request op next).Leads log p' ↔ log = [] ∧ p' = .request op next ∨
      ∃ r rest, log = ⟨op, r⟩ :: rest ∧ (next r).Leads rest p' := by
  constructor
  · intro h
    cases h with
    | here => exact .inl ⟨rfl, rfl⟩
    | request r h => exact .inr ⟨r, _, rfl, h⟩
  · rintro (⟨rfl, rfl⟩ | ⟨r, rest, rfl, h⟩)
    · exact .here _
    · exact .request r h

/-- **A program in two parts** is led through the first, and from its value through the second. -/
theorem leads_bind {g : α → Program Op Reply β} {q : Program Op Reply β}
    (h : (p.bind g).Leads log q) :
    (∃ op next, p.Leads log (.request op next) ∧ q = (request op next).bind g) ∨
      ∃ log₁ log₂ a, log = log₁ ++ log₂ ∧ p.Leads log₁ (.done a) ∧ (g a).Leads log₂ q := by
  induction p generalizing log with
  | done a => exact .inr ⟨[], log, a, rfl, .here _, h⟩
  | request op next ih =>
      rcases leads_request_iff.mp h with ⟨rfl, rfl⟩ | ⟨r, rest, rfl, hr⟩
      · exact .inl ⟨op, next, .here _, rfl⟩
      · rcases ih r hr with ⟨op', next', h₁, rfl⟩ | ⟨log₁, log₂, a, rfl, h₁, h₂⟩
        · exact .inl ⟨op', next', .request r h₁, rfl⟩
        · exact .inr ⟨_, log₂, a, rfl, .request r h₁, h₂⟩

/-- What leads past an exchange leads to its request, and on from its reply. -/
theorem Leads.split {p' : Program Op Reply α} {log₁ log₂ : List (Exchange Op Reply)}
    {e : Exchange Op Reply} (h : p.Leads (log₁ ++ e :: log₂) p') :
    ∃ next, p.Leads log₁ (.request e.op next) ∧ (next e.reply).Leads log₂ p' := by
  induction log₁ generalizing p with
  | nil =>
      rw [List.nil_append] at h
      cases h with
      | request r h => exact ⟨_, .here _, h⟩
  | cons first rest ih =>
      rw [List.cons_append] at h
      cases h with
      | request r h =>
          obtain ⟨next, h₁, h₂⟩ := ih h
          exact ⟨next, .request r h₁, h₂⟩

/-! ### How often a program asks -/

/-- The program makes at most `k` requests of a kind. -/
def AsksAtMost (q : Op → Bool) : Nat → Program Op Reply α → Prop
  | _, .done _ => True
  | k, .request op next =>
    if q op then ∃ left, k = left + 1 ∧ ∀ r, AsksAtMost q left (next r)
    else ∀ r, AsksAtMost q k (next r)

variable {q : Op → Bool} {k m : Nat}

/-- Who asks at most so often asks at most more often. -/
theorem AsksAtMost.mono (h : p.AsksAtMost q k) (hk : k ≤ m) : p.AsksAtMost q m := by
  induction p generalizing k m with
  | done a => trivial
  | request op next ih =>
      unfold AsksAtMost at h ⊢
      split
      · next hop =>
        rw [if_pos hop] at h
        obtain ⟨left, rfl, h⟩ := h
        exact ⟨m - 1, by omega, fun r => ih r (h r) (by omega)⟩
      · next hop =>
        rw [if_neg hop] at h
        exact fun r => ih r (h r) hk

/-- A request of another kind does not count. -/
theorem asksAtMost_request {op : Op} {next : Reply op → Program Op Reply α} (hop : q op = false)
    (h : ∀ r, (next r).AsksAtMost q k) : (request op next).AsksAtMost q k := by
  unfold AsksAtMost
  rw [if_neg (Bool.eq_false_iff.mp hop)]
  exact h

/-- **The bounds of two programs add up in their sequence.** -/
theorem AsksAtMost.bind {g : α → Program Op Reply β} (h : p.AsksAtMost q k)
    (hg : ∀ a, (g a).AsksAtMost q m) : (p.bind g).AsksAtMost q (k + m) := by
  induction p generalizing k with
  | done a => exact (hg a).mono (Nat.le_add_left m k)
  | request op next ih =>
      unfold AsksAtMost at h
      unfold Program.bind AsksAtMost
      split
      · next hop =>
        rw [if_pos hop] at h
        obtain ⟨left, rfl, h⟩ := h
        exact ⟨left + m, by omega, fun r => ih r (h r)⟩
      · next hop =>
        rw [if_neg hop] at h
        exact fun r => ih r (h r)

/-- A program that never asks for a kind of thing does not at first, nor after any reply. -/
theorem asksNone_request_iff {op : Op} {next : Reply op → Program Op Reply α} :
    (request op next).AsksAtMost q 0 ↔ q op = false ∧ ∀ r, (next r).AsksAtMost q 0 := by
  constructor
  · intro h
    unfold AsksAtMost at h
    split at h
    · obtain ⟨left, hleft, -⟩ := h
      cases hleft
    · next hop => exact ⟨Bool.eq_false_iff.mpr hop, h⟩
  · rintro ⟨hop, h⟩
    exact asksAtMost_request hop h

/-- What never asks for one kind of thing never asks for a part of the kind. -/
theorem AsksAtMost.of_le {q' : Op → Bool} (h : p.AsksAtMost q 0)
    (hq : ∀ op, q op = false → q' op = false) : p.AsksAtMost q' 0 := by
  induction p with
  | done a => trivial
  | request op next ih =>
      obtain ⟨hop, h⟩ := asksNone_request_iff.mp h
      exact asksAtMost_request (hq op hop) fun r => ih r (h r)

/-- What a program never asks it never asks from where it was led to. -/
theorem AsksAtMost.leads {p' : Program Op Reply α} (h : p.AsksAtMost q 0) (hl : p.Leads log p') :
    p'.AsksAtMost q 0 := by
  induction hl with
  | here p => exact h
  | request r _ ih => exact ih ((asksNone_request_iff.mp h).2 r)

/-- A quiet program asks for nothing. -/
theorem Quiet.asksAtMost (h : p.Quiet) : p.AsksAtMost q k := by
  cases p with
  | done a => trivial
  | request op next => exact h.elim

/-- **The bound holds of every run.** -/
theorem AsksAtMost.count_le {a : α} (h : p.AsksAtMost q k) (hc : p.Comes log a) :
    log.countP (fun e => q e.op) ≤ k := by
  induction hc generalizing k with
  | done a => exact Nat.zero_le k
  | @request op next log a r _ ih =>
      unfold AsksAtMost at h
      split at h
      · next hop =>
        obtain ⟨left, rfl, h⟩ := h
        have hle := ih (h r)
        simpa [List.countP_cons, hop] using hle
      · next hop =>
        have hle := ih (h r)
        simpa [List.countP_cons, hop] using hle

/-! ### What a program asks for -/

/-- The program makes only requests of a kind. -/
def AsksOnly (may : Op → Prop) : Program Op Reply α → Prop
  | .done _ => True
  | .request op next => may op ∧ ∀ r, AsksOnly may (next r)

variable {may may' : Op → Prop}

/-- A chain asks for no more than its parts. -/
theorem AsksOnly.bind {g : α → Program Op Reply β} (h : p.AsksOnly may)
    (hg : ∀ a, (g a).AsksOnly may) :
    (p.bind g).AsksOnly may := by
  induction p with
  | done a => exact hg a
  | request op next ih => exact ⟨h.1, fun r => ih r (h.2 r)⟩

/-- Who asks only for this asks only for more. -/
theorem AsksOnly.mono (h : p.AsksOnly may) (hm : ∀ op, may op → may' op) : p.AsksOnly may' := by
  induction p with
  | done a => trivial
  | request op next ih => exact ⟨hm op h.1, fun r => ih r (h.2 r)⟩

/-- **The kind holds of every request of every run.** -/
theorem AsksOnly.of_mem {a : α} (h : p.AsksOnly may) (hc : p.Comes log a) :
    ∀ x ∈ log, may x.op := by
  induction hc with
  | done a => exact List.forall_mem_nil _
  | request r _ ih => exact List.forall_mem_cons.mpr ⟨h.1, ih (h.2 r)⟩

theorem Quiet.asksOnly (h : p.Quiet) : p.AsksOnly may := by
  cases p with
  | done a => trivial
  | request op next => exact h.elim

end Parley.Program

/-!
## Programs that keep to a rule

A rule says which requests may be made, in view of what was replied before.  What there is to
remember of the replies is of type `μ`: `rule.may m op` is whether the request may be made with the
memory `m`, and `rule.notes m op r` is the memory when it has been replied `r`.

`p.Heeds rule m Q`: whatever it is replied, `p` makes only requests that it may make, if its memory
is `m` at first; and when it ends, `Q` holds of the memory and the value.  That is the weakest
precondition of `Q`, so a sequence is taken apart by `Heeds.bind`.
-/

namespace Parley.Program

variable {Op : Type} {Reply : Op → Type} {α β μ : Type}

/-- Which requests may be made, in view of the replies. -/
structure Rule (μ Op : Type) (Reply : Op → Type) where
  may : μ → Op → Prop
  notes : μ → (op : Op) → Reply op → μ

/-- The program makes only requests that it may make, and leads to `Q`. -/
def Heeds (rule : Rule μ Op Reply) (m : μ) (Q : μ → α → Prop) : Program Op Reply α → Prop
  | .done a => Q m a
  | .request op next => rule.may m op ∧ ∀ r, (next r).Heeds rule (rule.notes m op r) Q

variable {rule : Rule μ Op Reply} {m : μ} {Q Q' : μ → α → Prop} {p : Program Op Reply α}

/-- Who heeds a rule up to an end heeds it up to a weaker one. -/
theorem Heeds.mono (h : p.Heeds rule m Q) (hQ : ∀ m a, Q m a → Q' m a) : p.Heeds rule m Q' := by
  induction p generalizing m with
  | done a => exact hQ m a h
  | request op next ih => exact ⟨h.1, fun r => ih r (h.2 r)⟩

/-- **A sequence keeps to the rule** if its second part does from where its first part leads. -/
theorem Heeds.bind {g : α → Program Op Reply β} {Q : μ → β → Prop}
    (h : p.Heeds rule m fun m a => (g a).Heeds rule m Q) : (p.bind g).Heeds rule m Q := by
  induction p generalizing m with
  | done a => exact h
  | request op next ih => exact ⟨h.1, fun r => ih r (h.2 r)⟩

/-- A program that does not ask for what the rule is about keeps to it. -/
theorem AsksAtMost.heeds {q : Op → Bool} (h : p.AsksAtMost q 0)
    (hq : ∀ m op, q op = false → rule.may m op) : p.Heeds rule m fun _ _ => True := by
  induction p generalizing m with
  | done a => trivial
  | request op next ih =>
      obtain ⟨hop, h⟩ := asksNone_request_iff.mp h
      exact ⟨hq m op hop, fun r => ih r (h r)⟩

end Parley.Program
