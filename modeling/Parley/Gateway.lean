import Parley.Http.Client
import Parley.Http.Retry

/-!
# Gateways

A gateway is a service of the web that answers with documents. What fails, for whatever reason, is
tried three times. A failure tells which request failed and the class of what it failed with in the
end.

Main statement: `read_ok`, a document is read from answers that report success only.
-/

namespace Parley

/-- A service of the web. -/
structure Gateway where
  client : Http.Client
  /-- An answer without content counts as an object without entries. -/
  allowsEmpty : Bool := false

namespace Gateway

/-- Why a request to a gateway has no result. -/
inductive Failure where
  /-- All attempts failed, the last one for the cause told. -/
  | exhausted (request : String) (cause : Http.Fault)
  /-- The document that was answered is of no use. -/
  | unusable (e : Fault)

/-- The text of a failure. -/
def Failure.message : Failure → String
  | .exhausted request cause =>
    request ++ " failed: RetryError[<Future state=finished raised " ++ cause.className ++ ">]"
  | .unusable e => e.message

/-- Three attempts. -/
def patience : Http.Patience := ⟨3, 1, 10⟩

/-- The document of an answer. -/
def read (g : Gateway) (a : Http.Response) : Except Http.Fault Value :=
  if a.isSuccess then
    if g.allowsEmpty && a.content = "" then .ok (.object []) else a.document
  else .error (.status a.status)

/-- The document that answers a request; `request` is what failures call it. -/
def ask (g : Gateway) (request method : String) (address : Except Fault String)
    (params : Option (Entries String)) (body : Http.Body) : Http.Exchange (Except Failure Value) :=
  let attempt : Http.Exchange (Except Http.Fault Value) := match address with
    | .error e => .done (.error (.unwritable e))
    | .ok address => (g.client.send method address params [] body).bind fun a =>
        .done (a.bind g.read)
  (patience.run (fun _ => true) attempt).bind fun r => .done (r.mapError (.exhausted request))

/-- What is made of the document that answers. -/
def use {α : Type} (f : Value → Except Fault α) (answer : Http.Exchange (Except Failure Value)) :
    Http.Exchange (Except Failure α) :=
  answer.bind fun r => .done (r.bind fun v => (f v).mapError .unusable)

theorem read_ok {g : Gateway} {a : Http.Response} {v : Value} (h : g.read a = .ok v) :
    a.isSuccess = true := by
  unfold read at h
  split at h
  · assumption
  · exact nomatch h

end Gateway
end Parley
