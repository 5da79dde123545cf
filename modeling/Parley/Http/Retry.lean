import Parley.Http.Message
import Parley.Number.Digits

/-!
# Attempts

What fails is tried again after a wait, as long as the failure is such that another attempt may do
better and attempts are left. Waits double from one to the next up to a longest one.

Main statements: `waitAfter_le`, no wait is longer than the longest, and `persist_done`, what is
settled at once is not tried again.
-/

namespace Parley.Http

/-- How often something is tried, and how long the waits are. -/
structure Patience where
  /-- At least one attempt is made. -/
  attempts : Nat
  /-- The first wait, in seconds. -/
  first : Rat
  /-- The longest wait, in seconds. -/
  longest : Rat

namespace Patience

variable {ε α : Type}

/-- The wait after so many attempts. -/
def waitAfter (p : Patience) (made : Nat) : Rat :=
  let wait := p.first * Number.twoTo (made - 1)
  if p.longest ≤ wait then p.longest else wait

/-- Try, after so many attempts, and once more for every attempt that is left. -/
def persist (p : Patience) (again : ε → Bool) (act : Exchange (Except ε α)) :
    (left made : Nat) → Exchange (Except ε α)
  | 0, _ => act
  | left + 1, made => act.bind fun
    | .ok a => .done (.ok a)
    | .error e =>
      if again e then .request (.sleep (p.waitAfter (made + 1))) fun _ =>
        persist p again act left (made + 1)
      else .done (.error e)

/-- Try until it succeeds, fails for good, or the attempts are used up. -/
def run (p : Patience) (again : ε → Bool) (act : Exchange (Except ε α)) : Exchange (Except ε α) :=
  p.persist again act (p.attempts - 1) 0

/-- No wait is longer than the longest. -/
theorem waitAfter_le (p : Patience) (made : Nat) : p.waitAfter made ≤ p.longest := by
  simp only [waitAfter]
  split
  · exact Rat.le_refl
  · rename_i h
    exact Rat.le_of_lt (Rat.not_le.mp h)

/-- What succeeds at once is not tried again, nor is a failure that is not worth it. -/
theorem persist_done (p : Patience) {again : ε → Bool} {r : Except ε α} (left made : Nat)
    (h : ∀ e, r = .error e → again e = false) : p.persist again (.done r) left made = .done r := by
  cases left with
  | zero => rfl
  | succ left =>
    cases r with
    | ok a => rfl
    | error e => simp [persist, Program.bind, h e rfl]

end Patience
end Parley.Http
