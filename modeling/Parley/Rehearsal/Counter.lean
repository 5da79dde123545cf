import Parley.Rehearsal.Reception
import Parley.Service.Answer

/-!
# Rehearsed services

The service over a rehearsed reception: one request after the other, in virtual time.
-/

namespace Parley.Rehearsal.Reception

/-- What can be looked at. -/
def view (newId : Nat → String) (r : Reception) : Service.View :=
  ⟨r.registry, r.store, r.now, fun k => newId (r.begun + 1 + k)⟩

/-- What comes of an action; none when it is abandoned. -/
def perform (newId : Nat → String) : Service.Action →
    Act Reception (Option (Except Service.Fault Service.Reply))
  | .reply r => return some r.sent
  | .look f => do return some (f ((← world).view newId) >>= Service.Reply.sent)
  | .change f => Act.transact fun r =>
    let (reply, registry) := f r.registry
    (some (reply >>= Service.Reply.sent), { r with registry := registry })
  | .task t => do
    match ← run newId 0 ⟨none, none⟩ t with
    | .done reply => return some reply.sent
    | .refused e => return some (.error (.inbox e))
    | .abandoned => return none

end Parley.Rehearsal.Reception
