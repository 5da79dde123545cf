import Parley.Fault
import Parley.Program
import Parley.Text.Classes
import Parley.Value.Basic

/-!
# Completions

A language model is asked for a reply through the client of one of two vendors. They are told the
system prompt in different places. A model that a request names is used when it is of the vendor's
family. A client that cannot be made is tried for again by the next request.

Main statements: `reply_ne_blank`, a reply is never blank, and `pickModel_mem`, the model is the one
that was named or the standard one.
-/

namespace Parley.Completion

/-- Who is asked, and the standards of requests. -/
structure Config where
  provider : String := "anthropic"
  model : String
  temperature : Value
  maxTokens : Value
  apiKey : String := ""

/-- A request for a reply. -/
structure Request where
  systemPrompt : String := ""
  userMessage : String := ""
  tools : List String := []
  model : String := ""
  temperature : Value := .null
  maxTokens : Value := .null

/-- Why there is no reply. -/
inductive Failure where
  | unavailable (provider : String)
  /-- The client failed with a text. -/
  | failed (text : String)
  | blank

/-- The text of a failure. -/
def Failure.message : Failure → String
  | .unavailable provider => provider ++ " client unavailable"
  | .failed text => text
  | .blank => "empty completion"

namespace Config

/-- The name of whom the client is of. -/
def providerName (c : Config) : String := if c.provider = "" then "anthropic" else c.provider

/-- The client is OpenAI's; all other names stand for Anthropic. -/
def isOpenAI (c : Config) : Bool := c.providerName = "openai"

/-- The vendor of the client. -/
def vendor (c : Config) : String := if c.isOpenAI then "openai" else "anthropic"

/-- How the names of the vendor's models begin. -/
def family (c : Config) : String := if c.isOpenAI then "gpt" else "claude"

/-- The model for a request that may name one. -/
def pickModel (c : Config) (named : String) : String :=
  if named != "" && c.family.toList.isPrefixOf named.toList then named else c.model

end Config

/-- A system prompt that tells of the tools. -/
def withTools (prompt : String) (tools : List String) : String :=
  if tools.isEmpty then prompt
  else Text.strip (prompt ++ "\n\nFerramentas disponíveis:\n" ++
    "\n".intercalate (tools.map ("- " ++ ·)))

/-- A message of a role. -/
def messageOf (role content : String) :
    Value := .object [("role", .text role), ("content", .text content)]

/-- What the client is given. -/
def Request.sent (c : Config) (r : Request) : Fields :=
  let system := withTools r.systemPrompt r.tools
  let user := messageOf "user" (if r.userMessage = "" then "[início da conversa]"
    else r.userMessage)
  let settings : Fields := [("model", .text (c.pickModel r.model)),
    ("max_tokens", if r.maxTokens.isTruthy then r.maxTokens else c.maxTokens),
    ("temperature", match r.temperature with
      | .null => c.temperature
      | t => t)]
  if c.isOpenAI then ("messages", .list [messageOf "system" system, user]) :: settings
  else ("system", .text system) :: ("messages", .list [user]) :: settings

/-- The reply that the client's answer holds: the text of its first part, without blanks around it.
-/
def reply : Except String (List (Option String)) → Except Failure String
  | .error text => .error (.failed text)
  | .ok [] => .error (.failed Fault.indexOutOfRange.message)
  | .ok (part :: _) =>
    let text := Text.strip (part.getD "")
    if text = "" then .error .blank else .ok text

/-- What a completion asks for. -/
inductive Op where
  /-- Make a client of a vendor. -/
  | connect (vendor key : String)
  | generate (sent : Fields)

/-- What it is told: whether there is a client, and the parts of an answer or the text of an error.
-/
def Op.Reply : Op → Type
  | .connect .. => Bool
  | .generate _ => Except String (List (Option String))

/-- The reply to a request, and whether there is a client after it; `connected` tells whether there
was one before. -/
def complete (c : Config) (connected : Bool) (r : Request) :
    Program Op Op.Reply (Except Failure String × Bool) :=
  let generate := (Program.ask (Op.generate (r.sent c))).bind fun a => .done (reply a, true)
  if connected then generate
  else (Program.ask (Op.connect c.vendor c.apiKey)).bind fun
    | true => generate
    | false => .done (.error (.unavailable c.providerName), false)

/-- A reply is never empty. -/
theorem reply_ne_blank {a : Except String (List (Option String))} {text : String}
    (h : reply a = .ok text) : text ≠ "" := by
  unfold reply at h
  split at h
  · exact nomatch h
  · exact nomatch h
  · simp only at h
    split at h
    · exact nomatch h
    · rename_i given
      cases h
      exact given

/-- The model is the one that was named or the configured one. -/
theorem pickModel_mem (c : Config) (named : String) :
    c.pickModel named = named ∨ c.pickModel named = c.model := by
  unfold Config.pickModel
  split <;> simp

end Parley.Completion
