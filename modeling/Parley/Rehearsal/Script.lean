import Parley.Http.Message

/-!
# Scripts of answers

An exchange in virtual time whose requests are answered from a script, one after the other; the last
answer repeats. What was sent is recorded.

Main statement: `run_bind`, a script goes on where the first of two exchanges left it.
-/

namespace Parley.Rehearsal

/-- Answers to give, the clock in seconds, and the requests so far. -/
structure Script where
  answers : List (Except (Http.Trouble × String) Http.Response)
  clock : Rat := 0
  requests : List Http.Request := []

namespace Script

/-- The next answer, and what is left to give. Without answers there is no connection. -/
def draw : List (Except (Http.Trouble × String) Http.Response) →
    Except (Http.Trouble × String) Http.Response × List
      (Except (Http.Trouble × String) Http.Response)
  | [] => (.error (.connect, ""), [])
  | [a] => (a, [a])
  | a :: rest => (a, rest)

/-- The value of an exchange and the script after it. -/
def run {α : Type} : Script → Http.Exchange α → α × Script
  | s, .done a => (a, s)
  | s, .request (.sleep seconds) next => run { s with clock := s.clock + seconds } (next ())
  | s, .request (.send r) next =>
    run { s with answers := (draw s.answers).2, requests := s.requests ++ [r] }
      (next (draw s.answers).1)

/-- A script is run part by part. -/
theorem run_bind {α β : Type} (p : Http.Exchange α) (f : α → Http.Exchange β) (s : Script) :
    s.run (p.bind f) = (s.run p).2.run (f (s.run p).1) := by
  induction p generalizing s with
  | done a => rfl
  | request op next ih =>
    cases op with
    | send r => exact ih _ _
    | sleep seconds => exact ih _ _

end Script
end Parley.Rehearsal
