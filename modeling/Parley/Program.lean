/-!
# Programs

A computation that asks its surroundings: a finished value, or a request with what is done for every
possible reply. What the surroundings do about requests is no part of it, so one program can be run
against scripted collaborators, under a deadline, or among other programs.

Main statements: the laws of a monad (`bind_done`, `bind_assoc`), and `interpret_bind`, an
interpretation of requests by programs respects sequencing.
-/

namespace Parley

/-- A computation that makes requests, each of which has replies of its own kind. -/
inductive Program (Op : Type) (Reply : Op → Type) (α : Type) where
  | done (value : α)
  | request (op : Op) (next : Reply op → Program Op Reply α)

namespace Program

variable {Op Op' : Type} {Reply : Op → Type} {Reply' : Op' → Type} {α β γ : Type}

/-- Go on with the value of a program. -/
def bind : Program Op Reply α → (α → Program Op Reply β) → Program Op Reply β
  | .done a, f => f a
  | .request op next, f => .request op fun r => (next r).bind f

instance : Monad (Program Op Reply) where
  pure := .done
  bind := bind

/-- Make one request. -/
def ask (op : Op) : Program Op Reply (Reply op) := .request op .done

/-- Every request carried out by a program over other requests. -/
def interpret (f : (op : Op) → Program Op' Reply' (Reply op)) :
    Program Op Reply α → Program Op' Reply' α
  | .done a => .done a
  | .request op next => (f op).bind fun r => (next r).interpret f

/-- To go on with the value itself is not to go on. -/
theorem bind_done (p : Program Op Reply α) : p.bind .done = p := by
  induction p with
  | done a => rfl
  | request op next ih => exact congrArg (Program.request op) (funext ih)

/-- Three parts may be chained from either side. -/
theorem bind_assoc (p : Program Op Reply α) (f : α → Program Op Reply β)
    (g : β → Program Op Reply γ) : (p.bind f).bind g = p.bind fun a => (f a).bind g := by
  induction p with
  | done a => rfl
  | request op next ih => exact congrArg (Program.request op) (funext ih)

/-- A chain is interpreted part by part. -/
theorem interpret_bind (f : (op : Op) → Program Op' Reply' (Reply op)) (p : Program Op Reply α)
    (g : α → Program Op Reply β) :
    (p.bind g).interpret f = (p.interpret f).bind fun a => (g a).interpret f := by
  induction p with
  | done a => rfl
  | request op next ih =>
    simp only [bind, interpret, bind_assoc]
    exact congrArg (Program.bind (f op)) (funext ih)

end Program
end Parley
