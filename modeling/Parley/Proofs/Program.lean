import Parley.Program

/-!
# Programs against all surroundings, and against one

`p.Ends a`: some replies to the requests of `p` lead it to the value `a`.  What holds of every
value a program ends with holds whatever the surroundings reply.

`p.play f s`: the value that `p` comes to when `f` replies, and what `f` remembers in the end;
`s` is what it remembers at first.  A play is one of the ways in which a program ends
(`ends_play`).

`p.Quiet`: the program makes no request.
-/

namespace Parley.Program

variable {Op : Type} {Reply : Op → Type} {α β σ : Type}

/-! ### All the values of a program -/

/-- `a` is a value that the program may end with. -/
inductive Ends : Program Op Reply α → α → Prop where
  | done (a : α) : Ends (.done a) a
  | request {op : Op} {next : Reply op → Program Op Reply α} {a : α} (r : Reply op)
      (h : Ends (next r) a) : Ends (.request op next) a

@[simp] theorem ends_done_iff {a b : α} : (done a : Program Op Reply α).Ends b ↔ b = a := by
  constructor
  · intro h
    cases h
    rfl
  · rintro rfl
    exact .done b

@[simp] theorem ends_request_iff {op : Op} {next : Reply op → Program Op Reply α} {a : α} :
    (request op next).Ends a ↔ ∃ r, (next r).Ends a := by
  constructor
  · intro h
    cases h with
    | request r h => exact ⟨r, h⟩
  · rintro ⟨r, h⟩
    exact .request r h

theorem ends_bind_iff {p : Program Op Reply α} {g : α → Program Op Reply β} {b : β} :
    (p.bind g).Ends b ↔ ∃ a, p.Ends a ∧ (g a).Ends b := by
  induction p with
  | done a => simp [bind]
  | request op next ih =>
      simp only [bind, ends_request_iff, ih]
      constructor
      · rintro ⟨r, a, h, h'⟩
        exact ⟨a, ⟨r, h⟩, h'⟩
      · rintro ⟨a, ⟨r, h⟩, h'⟩
        exact ⟨r, a, h, h'⟩

/-- Programs go on alike when they do from all that the first part can end with. -/
theorem bind_congr {p : Program Op Reply α} {f g : α → Program Op Reply β}
    (h : ∀ a, p.Ends a → f a = g a) :
    p.bind f = p.bind g := by
  induction p with
  | done a => exact h a (.done a)
  | request op next ih =>
      exact congrArg (Program.request op) (funext fun r => ih r fun a ha => h a (.request r ha))

/-! ### One play of a program -/

/-- The value that the program comes to when `f` replies, and what `f` remembers then. -/
def play (f : (op : Op) → σ → Reply op × σ) : Program Op Reply α → σ → α × σ
  | .done a, s => (a, s)
  | .request op next, s => (next (f op s).1).play f (f op s).2

theorem play_bind (f : (op : Op) → σ → Reply op × σ) (p : Program Op Reply α)
    (g : α → Program Op Reply β) (s : σ) :
    (p.bind g).play f s = (g (p.play f s).1).play f (p.play f s).2 := by
  induction p generalizing s with
  | done a => rfl
  | request op next ih => exact ih (f op s).1 (f op s).2

theorem ends_play (f : (op : Op) → σ → Reply op × σ) (p : Program Op Reply α) (s : σ) :
    p.Ends (p.play f s).1 := by
  induction p generalizing s with
  | done a => exact .done a
  | request op next ih => exact .request (f op s).1 (ih (f op s).1 (f op s).2)

/-! ### Programs that ask nothing -/

/-- The program makes no request. -/
def Quiet : Program Op Reply α → Prop
  | .done _ => True
  | .request _ _ => False

theorem Quiet.bind {p : Program Op Reply α} {g : α → Program Op Reply β} (h : p.Quiet)
    (hg : ∀ a, (g a).Quiet) : (p.bind g).Quiet := by
  cases p with
  | done a => exact hg a
  | request op next => exact h.elim

end Parley.Program

/-!
## Programs abreast

Two programs are abreast when, whatever they are replied, they make the same requests one after the
other and end together, with values that the relation `R` holds of: `p.Abreast R q`.  So whoever
replies to them cannot tell them apart until they end (`Abreast.play`).
-/

namespace Parley.Program

variable {Op : Type} {Reply : Op → Type} {α β γ δ σ : Type} {R S : α → β → Prop}
  {p : Program Op Reply α} {q : Program Op Reply β}

/-- The programs make the same requests and end with related values. -/
inductive Abreast (R : α → β → Prop) : Program Op Reply α → Program Op Reply β → Prop where
  | done {a : α} {b : β} (h : R a b) : Abreast R (.done a) (.done b)
  | request {op : Op} {next : Reply op → Program Op Reply α}
      {next' : Reply op → Program Op Reply β} (h : ∀ r, Abreast R (next r) (next' r)) :
      Abreast R (.request op next) (.request op next')

/-- A program is abreast of itself. -/
theorem abreast_self {R : α → α → Prop} (h : ∀ a, R a a) (p : Program Op Reply α) :
    Abreast R p p := by
  induction p with
  | done a => exact .done (h a)
  | request op next ih => exact .request ih

theorem Abreast.mono (h : Abreast R p q) (hS : ∀ a b, R a b → S a b) : Abreast S p q := by
  induction h with
  | done h => exact .done (hS _ _ h)
  | request _ ih => exact .request ih

/-- Programs abreast stay so when they go on abreast. -/
theorem Abreast.bind {S : γ → δ → Prop} {g : α → Program Op Reply γ} {g' : β → Program Op Reply δ}
    (h : Abreast R p q) (hg : ∀ a b, R a b → Abreast S (g a) (g' b)) :
    Abreast S (p.bind g) (q.bind g') := by
  induction h with
  | done h => exact hg _ _ h
  | request _ ih => exact .request ih

/-- **Whoever replies** leads both programs to related values, and is in one state in the end. -/
theorem Abreast.play (h : Abreast R p q) (f : (op : Op) → σ → Reply op × σ) (s : σ) :
    R (p.play f s).1 (q.play f s).1 ∧ (q.play f s).2 = (p.play f s).2 := by
  induction h generalizing s with
  | done h => exact ⟨h, rfl⟩
  | @request op _ _ _ ih => exact ih (f op s).1 (f op s).2

end Parley.Program
