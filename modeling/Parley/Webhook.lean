import Parley.Consultation
import Parley.Http.Client
import Parley.Http.Retry

/-!
# Webhooks

A webhook is called with a method, a body and headers. Trouble of the transport and answers that
report a fault of the server are tried again; any other answer is what the call results in, with the
document that it holds, or its text when it holds none.

Main statement: `call_noAddress`, a call without an address sends nothing.
-/

namespace Parley.Webhook

/-- A call. -/
structure Call where
  url : String
  method : String := "GET"
  body : Value := .null
  headers : Entries String := []
  /-- Seconds; none are stated by what counts as absent. -/
  timeout : Value := .null
  attempts : Option Int := none

/-- What a call that does not state it is bounded by. -/
structure Bounds where
  timeout : Value := .float (Binary64.round false 10 1)
  attempts : Int := 3

/-- Why a call has no result. -/
inductive Failure where
  | noAddress
  | unreached (method url : String) (cause : Http.Fault)
  /-- The request cannot be put together. -/
  | unsendable (cause : Http.Fault)

/-- The text of a failure. -/
def Failure.message : Failure → String
  | .noAddress => "webhook url is empty"
  | .unreached method url cause => method ++ " " ++ url ++ " failed: " ++ cause.message
  | .unsendable cause => cause.message

/-- The method of a call in capital letters. -/
def Call.verb (c : Call) : String := if c.method = "" then "GET" else c.method.toUpper

/-- What a call sends along. A look-up sends nothing; objects and lists are sent as documents. -/
def Call.content (c : Call) : Except Fault Http.Body :=
  if c.verb = "GET" then .ok .empty
  else match c.body with
    | .null | .text "" => .ok .empty
    | .list items => .ok (.json (.list items))
    | .object fields => .ok (.json (.object fields))
    | v => v.plain.map .text

/-- Another attempt may do better. -/
def isPassing : Http.Fault → Bool
  | .trouble t _ => t.isTransport
  | .status _ => true
  | _ => false

/-- The fault lies on the way or at the other end. -/
def isReported : Http.Fault → Bool
  | .address _ | .trouble _ _ | .status _ => true
  | _ => false

/-- What a call makes of a fault. -/
def Call.failure (c : Call) (e : Http.Fault) : Failure :=
  if isReported e then .unreached c.verb c.url e else .unsendable e

/-- The document of an answer, or its text when it holds none. -/
def content (a : Http.Response) : Value :=
  if a.content = "" then .text ""
  else match a.document with
    | .ok v => v
    | .error _ => .text a.content

/-- An answer that reports no fault of the server. -/
def accept (a : Http.Response) : Except Http.Fault Http.Response :=
  if 500 ≤ a.status then .error (.status a.status) else .ok a

/-- The attempts of a call; there is one at least. -/
def patience (bounds : Bounds) (c : Call) : Http.Patience :=
  ⟨(c.attempts.getD bounds.attempts).toNat, 1 / 2, 5⟩

/-- How long a call waits for an answer. -/
def timeout (bounds : Bounds) (c : Call) :
    Value := if c.timeout.isTruthy then c.timeout else bounds.timeout

/-- Call a webhook. -/
def call (bounds : Bounds) (c : Call) : Http.Exchange (Except Failure WebhookAnswer) :=
  if c.url = "" then .done (.error .noAddress)
  else match c.content with
    | .error e => .done (.error (.unsendable (.unwritable e)))
    | .ok body =>
      let client : Http.Client := { timeout := timeout bounds c, followsRedirects := true }
      let attempt := (client.send c.verb c.url none c.headers body).bind fun a =>
        .done (a.bind accept)
      ((patience bounds c).run isPassing attempt).bind fun r => .done <|
        match r with
        | .ok a => .ok ⟨a.status, content a⟩
        | .error e => .error (c.failure e)

/-- An answer reports success. -/
def isOk (a : WebhookAnswer) : Bool := 200 ≤ a.status && a.status < 300

/-- Without an address nothing is sent. -/
theorem call_noAddress (bounds : Bounds) {c : Call} (h : c.url = "") :
    call bounds c = .done (.error .noAddress) := by
  simp [call, h]

end Parley.Webhook
