import Parley.Json.Reader
import Parley.Media
import Parley.Step.Action

/-!
# Nodes that consult a model, media or a webhook

An assistant that has no answer, because it fails, is late or is not there, falls back on what the
node says instead. A welcoming assistant first turns media into text, and with smart routing hands
over to a person or to the assistant of a sector when a keyword occurs in the text. A webhook that
fails is a failure of its node.
-/

namespace Parley.Step

open Template (fill)

variable (s : Setting) (id : String) (vars : Fields)

/-- The answer of the model, which is empty when there is none. -/
def replyOr (ask : Action String) : Action String := tryCatch ask fun _ => pure ""

/-- An assistant node. -/
def runAssistant (d : Flow.Assistant) (answer : Option String) : Action Effect := do
  let prompt := (← fill d.systemPrompt vars) ++ (← contextBlock d.contextVariables vars)
  let message ← match answer with
    | some a => pure a
    | none => displayOf vars "last_user_message"
  let reply ← replyOr do
    needs s.team.completion "no completion service configured"
    s.consult (.complete prompt message d.tools (if d.model = "" then none else some d.model)
      d.temperature d.maxTokens)
  let said ← if reply = "" then fill d.fallbackMessage vars else pure reply
  return { output := if said = "" then .silence else .one said, course := ← s.onward id "",
           changes := [("ai_response", .text reply)] }

/-- Named values, as a reading gives them; a name need not be a text. -/
abbrev Named := List (Value × Value)

/-- A pair of a name and a value: the items of a list of two, the characters of a text of two, or
the names of an object of two. What has parts is no name. -/
def pairOf? : Value → Option (Value × Value)
  | .list [.list _, _] | .list [.object _, _] => none
  | .list [name, v] => some (name, v)
  | .text t =>
    match t.toList with
    | [a, b] => some (.text (String.singleton a), .text (String.singleton b))
    | _ => none
  | .object [(a, _), (b, _)] => some (.text a, .text b)
  | _ => none

/-- The named values that a reading stands for: the entries of an object, or a list of pairs. -/
def namedValues? : Value → Option Named
  | .object fields => some (fields.map fun e => (.text e.1, e.2))
  | .list items => items.mapM pairOf?
  | .text "" => some []
  | _ => none

/-- The variables that named values make; the name of a variable is a text. -/
def variablesOf (found : Named) : Except Fault Fields := do
  let pairs ← found.mapM fun e => match e.1 with
    | .text name => .ok (name, e.2)
    | name => .error (.notName name.kindWord)
  return Entries.ofPairs pairs

/-- A message of a kind as it was read, with the named values that are read off it. -/
def readMedia (d : Flow.Welcome) (payload : String) : Media.Kind → Action (Value × Named)
  | .audio => do
    if !d.capabilities.handleAudio then return (.text payload, [])
    let reading : Value ← s.consult (.transcribe payload d.audioTranscriptionProvider)
    return (reading, [(.text "audio_transcription", reading)])
  | .paymentProof => do
    if !d.capabilities.handlePaymentProof then return (.text payload, [])
    let reading : Value ← s.consult (.extractFields payload d.ocrProvider d.paymentProofFields)
    let summary ← reading.json .spaced
    match namedValues? reading with
    | some found => return (.text ("Comprovante de pagamento recebido: " ++ summary), found)
    | none => throw (.notIterable reading.kindWord)
  | .image => do
    if !d.capabilities.handleImages then return (.text payload, [])
    let reading : Value ← s.consult (.describeImage payload)
    return (.text ("Imagem recebida: " ++ (← reading.plain)),
      [(.text "image_description", reading)])
  | .document => do
    if !d.capabilities.handleDocuments then return (.text payload, [])
    let reading : Value ← s.consult (.readDocument payload)
    return (.text ("Documento recebido: " ++ (← reading.plain)),
      [(.text "document_content", reading)])
  | .text => return (.text payload, [])

/-- A message as it was read; as it is when it cannot be read. -/
def readMediaOr (d : Flow.Welcome) (payload : String) (kind : Media.Kind) :
    Action (Value × Named) :=
  if s.team.media then tryCatch (readMedia s d payload kind) fun _ => pure (.text payload, [])
  else pure (.text payload, [])

/-- What was read must be text to go on with. -/
def textRead : Value → Except Fault String
  | .text t => .ok t
  | v => .error (.noAttribute v.kindWord "lower")

/-- One of the words, without regard to case, occurs in the text, which is in lower case. -/
def mentions (lowered : String) (words : List String) : Bool :=
  words.any fun w => w != "" && Text.contains (Text.lower w) lowered

/-- The message asks for a person. -/
def callsForPerson (d : Flow.Welcome) (processed : String) (found : Named) :
    Except Fault Effect := do
  let metadata : Fields := [("node_id", .text id), ("message", .text processed)]
  let said ← fill d.humanHandoffMessage vars
  return { output := .one said,
           changes := (← variablesOf found).update
             [("handoff_target", .text d.humanHandoffDepartment),
             ("handoff_reason", .text "user_request")],
           course := .handoff { targetId := d.humanHandoffDepartment, reason := "user_request",
                                metadata := metadata } }

/-- The message is one for a sector. -/
def goesToSector (sector : Flow.Sector) (processed : String) (found : Named) :
    Except Fault Effect := do
  let extracted ← variablesOf found
  return { output := .one ("Entendi! Vou transferir para " ++ sector.name ++ "."),
           course := ← s.onward id "sector_ai",
           changes := extracted.update [("sector_ai_id", .text sector.id),
             ("sector_ai_name", .text sector.name), ("original_message", .text processed)],
           metadata := [("handle", .text "sector_ai")] }

/-- The message is answered by the model. -/
def answersItself (d : Flow.Welcome) (kind : Media.Kind) (processed : String) (found : Named) :
    Action Effect := do
  let reply ← replyOr do
    needs s.team.completion "no completion service configured"
    let prompt := (← fill d.systemPrompt vars) ++ (← contextBlock d.contextVariables vars)
    s.consult (.complete prompt processed [] (if d.model = "" then none else some d.model)
      d.temperature none)
  let said ← if reply = "" then fill d.fallbackMessage vars else pure reply
  let extracted ← variablesOf found
  return { output := .one said, course := ← s.onward id "continue",
           changes := extracted.update [("welcome_ai_response", .text reply),
             ("original_message", .text processed), ("media_type", .text kind.name)],
           metadata := [("handle", .text "continue")] }

/-- A welcoming assistant's node. -/
def runWelcome (d : Flow.Welcome) : Option String → Action Effect
  | none => return { output := .one (← fill d.greetingMessage vars), course := .wait }
  | some answer => do
    let kind := Media.Kind.detect answer
    let (reading, found) ← readMediaOr s d answer kind
    let processed ← textRead reading
    let lowered := Text.lower processed
    if d.enableSmartRouting && mentions lowered d.humanHandoffTriggers then
      callsForPerson id vars d processed found
    else
      match d.sectors.find? fun sector => d.enableSmartRouting &&
          mentions lowered sector.keywords with
      | some sector => goesToSector s id sector processed found
      | none => answersItself s id vars d kind processed found

/-- The body of a request with its slots filled; a text that denotes a document is sent as one. -/
def requestBody : Option Flow.RequestBody → Except Fault Value
  | none => .ok .null
  | some (.fields fs) => Template.fillLeaves vars (.object fs)
  | some (.text t) =>
    if t = "" then .ok .null
    else do
      let rendered ← fill t vars
      match Json.read rendered with
      | .ok v => return v
      | .error _ => return .text rendered

/-- The headers of a request with their slots filled. -/
def requestHeaders (headers : Entries String) : Except Fault (Entries String) :=
  headers.mapM fun e => return (e.1, ← fill e.2 vars)

/-- A webhook node. -/
def runWebhook (d : Flow.Webhook) : Action Effect := do
  let url ← fill d.url vars
  needs s.team.webhooks "no webhook invoker configured"
  let answer ← tryCatch
    (do
      let body ← requestBody vars d.body
      let headers ← requestHeaders vars d.headers
      s.consult (.callWebhook url d.method body headers d.timeout d.retryCount))
    fun f => throw (.stated ("Erro ao chamar webhook: " ++ f.message))
  let name := orElseText d.responseVariable "webhook_response"
  return { course := ← s.onward id "",
           changes := Entries.ofPairs [(name, answer.body),
             (name ++ "_status", .int answer.status)] }

end Parley.Step
