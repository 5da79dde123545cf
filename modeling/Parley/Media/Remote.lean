import Parley.Fault
import Parley.Gateway
import Parley.Value.Access
import Parley.Value.Basic

/-!
# Readings of media

Who reads media gives readings of messages: one that is canned, the same for all, or what a service
of the web makes of each.
-/

/-!
## Canned readings of media

A processor of media that gives the same reading of every message, for conversations without one.
The readings are values as they were given; fields that are no object cannot be told apart.
-/

namespace Parley.Media

/-- The readings that are given out. -/
structure Canned where
  transcription : Value := .text "Olá, gostaria de saber sobre meu boleto."
  fields : Value := .object [("valor", .text "R$ 1.500,00"), ("data", .text "10/01/2026"),
    ("banco", .text "Banco do Brasil"), ("beneficiario", .text "Imobiliária XYZ"),
    ("status", .text "confirmado")]

namespace Canned

/-- The fields of those that are asked for; all of them when none is named. -/
def extract (c : Canned) (wanted : List String) : Except Fault Value :=
  match c.fields with
  | .object fields => .ok (.object (fields.filter fun e => wanted.isEmpty || wanted.contains e.1))
  | v => .error (.noAttribute v.kindWord "items")

/-- The description of an image. -/
def imageDescription : String := "Imagem de documento ou comprovante"

/-- The content of a document. -/
def documentContent : String := "Conteúdo do documento extraído"

end Canned
end Parley.Media

/-!
## Readings of media over the web

A service of the web that hears recordings, reads documents and proofs of payment and tells what
pictures show. Each answer is the entry of a document, or a standard when the document lacks it.
-/

namespace Parley.Media

/-- A reader of media on the web. -/
structure Remote where
  gateway : Gateway

namespace Remote

/-- The reader of a section of the settings. -/
def ofConfig (config : Fields) : Remote :=
  let text := fun name => ((config.get? name).bind Value.asText?).getD ""
  { gateway := { client := { base := text "base_url",
                             headers := [("Authorization", "Bearer " ++ text "api_key")],
                             timeout := .float (Binary64.round false 60 1) } } }

/-- The entry of the document that answers a request. -/
def ask (m : Remote) (path : String) (request : Fields) (entry : String) (standard : Value) :
    Http.Exchange (Except Gateway.Failure Value) :=
  Gateway.use (fun v => do return ((← v.entriesFor "get").get? entry).getD standard) <|
    m.gateway.ask ("media " ++ path) "POST" (.ok path) none (.json (.object request))

/-- The words of a recording. -/
def transcribe (m : Remote) (payload provider : String) :
    Http.Exchange (Except Gateway.Failure Value) :=
  m.ask "/transcriptions" [("ref", .text payload), ("provider", .text provider)] "text" (.text "")

/-- The fields of a proof of payment. -/
def extractFields (m : Remote) (payload provider : String) (fields : List String) :
    Http.Exchange (Except Gateway.Failure Value) :=
  m.ask "/ocr" [("ref", .text payload), ("provider", .text provider),
    ("fields", .texts fields)] "fields"
    (.object [])

/-- What a picture shows. -/
def describeImage (m : Remote) (payload : String) : Http.Exchange (Except Gateway.Failure Value) :=
  m.ask "/vision" [("ref", .text payload)] "description" (.text "")

/-- The content of a document. -/
def readDocument (m : Remote) (payload : String) : Http.Exchange (Except Gateway.Failure Value) :=
  m.ask "/documents" [("ref", .text payload)] "content" (.text "")

end Remote
end Parley.Media
