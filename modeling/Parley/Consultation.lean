import Parley.Value.Basic

/-!
# Consultations

What a conversation asks of its collaborators: a language model, a webhook invoker, a back office
and a processor of media. Each request has answers of its own kind; that a collaborator fails or
does not answer in time is told beside them.
-/

namespace Parley

/-- A request to a collaborator. -/
inductive Consultation where
  | complete (systemPrompt userMessage : String) (tools : List String) (model : Option String)
      (temperature : Option Binary64) (maxTokens : Option Int)
  | callWebhook (url method : String) (body : Value) (headers : Entries String)
      (timeout : Option Binary64) (retries : Option Int)
  | findContracts (identifyBy value : String)
  | clientType (contract : String)
  | checkDuplicate (value : Value) (field table : String)
  | saveLead (table : String) (fields : Fields) (source : String) (tags : List String)
  | sendLead (url : String) (fields : Fields) (source : String) (tags : List String)
  | createTicket (target priority reason : String) (metadata : Fields)
  | transcribe (payload provider : String)
  | extractFields (payload provider : String) (fields : List String)
  | describeImage (payload : String)
  | readDocument (payload : String)

/-- The answer of a webhook. -/
structure WebhookAnswer where
  status : Int
  body : Value

/-- What a request is answered with. -/
def Consultation.Answer : Consultation → Type
  | .complete .. => String
  | .callWebhook .. => WebhookAnswer
  | .findContracts .. => Value
  | .clientType _ => Value
  | .checkDuplicate .. => Bool
  | .saveLead .. => Unit
  | .sendLead .. => Unit
  | .createTicket .. => Value
  | .transcribe .. => Value
  | .extractFields .. => Value
  | .describeImage _ => Value
  | .readDocument _ => Value

/-- Which collaborators there are. -/
structure Team where
  completion : Bool := false
  media : Bool := false
  webhooks : Bool := false
  backend : Bool := false

end Parley
