import Parley.Number.Binary64

/-!
# Policies

The bounds under which turns are run.
-/

namespace Parley

/-- The bounds of a turn and what is said when one is met. -/
structure Policy where
  /-- The steps of one turn. -/
  maxSteps : Int := 100
  /-- The visits that a session keeps; all of them when not positive. -/
  historyLimit : Int := 50
  /-- Seconds for a turn; no bound when not positive. -/
  turnTimeout : Binary64 := Binary64.round false 30 1
  /-- Seconds for a collaborator to answer; no bound when not positive. -/
  collaboratorTimeout : Binary64 := Binary64.round false 15 1
  /-- The longest delay of a delay node, in seconds. -/
  maxDelay : Binary64 := Binary64.round false 30 1
  /-- A handle without an edge is an error. -/
  strictRouting : Bool := false
  errorMessage : String := "Desculpe, ocorreu um erro. Tente novamente mais tarde."

namespace Policy

/-- A bound that is positive, or none. -/
def positive? (x : Binary64) : Option Binary64 := if Binary64.zero.lt x then some x else none

/-- The bound on the answer of a collaborator. -/
def callBound (p : Policy) : Option Binary64 := positive? p.collaboratorTimeout

/-- The bound on the opening of a ticket, which may be negative. -/
def ticketBound (p : Policy) : Option Binary64 :=
  if p.collaboratorTimeout.same Binary64.zero then none else some p.collaboratorTimeout

/-- A delay that is neither negative nor longer than allowed; what is no number is no delay. -/
def delay (p : Policy) (seconds : Binary64) : Binary64 :=
  let capped := if p.maxDelay.lt seconds then p.maxDelay else seconds
  if Binary64.zero.lt capped then capped else Binary64.zero

end Policy
end Parley
