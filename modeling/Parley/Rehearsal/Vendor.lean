import Parley.Completion

/-!
# Vendors

A vendor stands in for the client of a language model: texts that are given out one after the other,
of which the last one repeats, or an error for every request. Its client may be one that cannot be
made. What was asked of it is recorded.
-/

namespace Parley.Rehearsal

/-- A stand-in for a client. -/
structure Vendor where
  /-- What is left to give out; nothing is an answer without parts. -/
  texts : List (Option String) := [some "ok"]
  /-- Every request fails with this text. -/
  error : Option String := none
  refusesClients : Bool := false
  /-- The clients that were asked for, with their keys. -/
  clients : List (String × String) := []
  /-- What was sent. -/
  sent : List Fields := []

namespace Vendor

/-- The parts of the next answer, and what is left. -/
def draw : List (Option String) → List (Option String) × List (Option String)
  | [] => ([], [])
  | [t] => ([t], [t])
  | t :: rest => ([t], rest)

/-- The value of a program and the vendor after it. -/
def run {α : Type} : Vendor → Program Completion.Op Completion.Op.Reply α → α × Vendor
  | v, .done a => (a, v)
  | v, .request (.connect vendor key) next =>
    run { v with clients := v.clients ++ [(vendor, key)] } (next !v.refusesClients)
  | v, .request (.generate fields) next =>
    let answer := match v.error with
      | some text => .error text
      | none => .ok (draw v.texts).1
    run { v with texts := (draw v.texts).2, sent := v.sent ++ [fields] } (next answer)

end Vendor
end Parley.Rehearsal
