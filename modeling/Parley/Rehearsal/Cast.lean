import Parley.Consultation.Record
import Parley.Desk
import Parley.Media.Remote

/-!
# Casts

A cast stands in for the collaborators of conversations: replies of the model and answers of
webhooks that are given out one after the other, of which the last one repeats, a desk and canned
readings of media. A collaborator may be made to fail or to take its time.
-/

namespace Parley

namespace Rehearsal

/-- The collaborators of a rehearsal; those that are not given are missing. -/
structure Cast where
  replies : Option (List String) := none
  webhooks : Option (List WebhookAnswer) := none
  desk : Option Desk := none
  media : Option Media.Canned := none
  /-- Requests that fail, with the texts they fail with. -/
  failing : Entries String := []
  /-- Requests that take time, in seconds. -/
  delays : Entries Rat := []

namespace Cast

/-- Which collaborators there are. -/
def team (c : Cast) : Team :=
  { completion := c.replies.isSome, webhooks := c.webhooks.isSome, backend := c.desk.isSome,
    media := c.media.isSome }

/-- The first of what is left to give out, and what is left then. -/
def draw {α : Type} : Option (List α) → Except Fault α × Option (List α)
  | none => (.error (.stated ""), none)
  | some [] => (.error .indexOutOfRange, some [])
  | some [a] => (.ok a, some [a])
  | some (a :: b :: rest) => (.ok a, some (b :: rest))

/-- The desk, which is empty when there is none. -/
def office (c : Cast) : Desk := c.desk.getD { contracts := [] }

/-- The reader of media. -/
def reader (c : Cast) : Media.Canned := c.media.getD {}

/-- The answer to a request and the cast after it. -/
def respond (c : Cast) : (q : Consultation) → Except Fault q.Answer × Cast
  | .complete .. =>
    let (reply, left) := draw c.replies
    (reply, { c with replies := left })
  | .callWebhook .. =>
    let (answer, left) := draw c.webhooks
    (answer, { c with webhooks := left })
  | .findContracts identifyBy value => ((c.office.findContracts identifyBy value).map .list, c)
  | .clientType contract => (c.office.clientType contract, c)
  | .checkDuplicate value field table => (c.office.checkDuplicate value field table, c)
  | .saveLead table fields source tags =>
    (.ok (), { c with desk := some (c.office.saveLead table fields source tags) })
  | .sendLead url fields source tags =>
    (.ok (), { c with desk := some (c.office.sendLead url fields source tags) })
  | .createTicket target priority reason metadata =>
    let (desk, ticket) := c.office.createTicket target priority reason metadata
    (.ok ticket, { c with desk := some desk })
  | .transcribe .. => (.ok c.reader.transcription, c)
  | .extractFields _ _ fields => (c.reader.extract fields, c)
  | .describeImage _ => (.ok (.text Media.Canned.imageDescription), c)
  | .readDocument _ => (.ok (.text Media.Canned.documentContent), c)

/-- The answer to a request, which fails when it is made to, and the cast after it. -/
def answer (c : Cast) (q : Consultation) : Except Fault q.Answer × Cast :=
  match c.failing.get? q.label with
  | some text => (.error (.collaborator text), c)
  | none => c.respond q

end Cast
end Rehearsal
end Parley
