import Parley.Text.Classes
import Parley.Text.Case

/-!
# Media

The kind of what a person sent: plain text, a recording, a picture, a proof of payment or a
document. The kind shows in a marker of the channel or in the ending of a file name; of several the
first in the order of `Kind.detect` counts.
-/

namespace Parley.Media

/-- The kind of a message. -/
inductive Kind where
  | text
  | audio
  | image
  | paymentProof
  | document
  deriving DecidableEq, Repr

/-- The name of a kind. -/
def Kind.name : Kind → String
  | .text => "text"
  | .audio => "audio"
  | .image => "image"
  | .paymentProof => "payment_proof"
  | .document => "document"

/-- Endings of recordings. -/
def audioEndings : List String := [".ogg", ".oga", ".opus", ".mp3", ".m4a", ".wav"]

/-- Endings of pictures. -/
def imageEndings : List String := [".jpg", ".jpeg", ".png", ".webp"]

/-- Endings of documents. -/
def documentEndings : List String := [".pdf", ".doc", ".docx"]

/-- The text has one of the endings. -/
def hasEnding (endings : List String) (s : String) : Bool :=
  endings.any fun e => e.toList.isSuffixOf s.toList

/-- The kind of a message. -/
def Kind.detect (payload : String) : Kind :=
  let text := Text.strip payload
  let lowered := Text.lower text
  if Text.contains "[AUDIO]" text || hasEnding audioEndings lowered then .audio
  else if Text.contains "[COMPROVANTE]" text || Text.contains "comprovante" lowered ||
      Text.contains "pix" lowered then .paymentProof
  else if Text.contains "[IMAGE]" text || hasEnding imageEndings lowered then .image
  else if Text.contains "[DOCUMENT]" text || hasEnding documentEndings lowered then .document
  else .text

end Parley.Media
