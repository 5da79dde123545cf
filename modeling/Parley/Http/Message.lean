import Parley.Fault
import Parley.Http.Url
import Parley.Json.Reader
import Parley.Program

/-!
# Requests and answers of the web

A request is prepared from an address, headers and a body, any of which may be such that it cannot
be sent. Then it is answered, or there is trouble on the way. An exchange is a program that sends
requests and sleeps between them; who answers is no part of it.

Main statement: every kind of trouble is found by its name (`named?_name`).
-/

namespace Parley.Http

/-- What comes with a request. -/
inductive Body where
  | empty
  | json (v : Value)
  | text (s : String)

/-- A request. -/
structure Request where
  method : String
  url : Url
  /-- Headers by names in small letters. -/
  headers : Entries String
  body : Body
  /-- Seconds to wait for the answer, as they are stated. -/
  timeout : Value

/-- An answer. -/
structure Response where
  status : Int
  headers : Entries String := []
  content : String := ""

/-- The kinds of trouble on the way of a request. -/
inductive Trouble where
  | connect | connectTimeout
  | read | readTimeout
  | write | writeTimeout
  | poolTimeout
  | close
  | proxy
  | localProtocol | remoteProtocol | unsupportedProtocol
  | decoding
  | redirects
  deriving DecidableEq, Repr

namespace Trouble

/-- All kinds. -/
def all : List Trouble :=
  [.connect, .connectTimeout, .read, .readTimeout, .write, .writeTimeout, .poolTimeout,
    .close, .proxy, .localProtocol, .remoteProtocol, .unsupportedProtocol, .decoding, .redirects]

/-- The name of a kind. -/
def name : Trouble → String
  | .connect => "ConnectError"
  | .connectTimeout => "ConnectTimeout"
  | .read => "ReadError"
  | .readTimeout => "ReadTimeout"
  | .write => "WriteError"
  | .writeTimeout => "WriteTimeout"
  | .poolTimeout => "PoolTimeout"
  | .close => "CloseError"
  | .proxy => "ProxyError"
  | .localProtocol => "LocalProtocolError"
  | .remoteProtocol => "RemoteProtocolError"
  | .unsupportedProtocol => "UnsupportedProtocol"
  | .decoding => "DecodingError"
  | .redirects => "TooManyRedirects"

/-- The kind of a name. -/
def named? (s : String) : Option Trouble := all.find? (·.name = s)

/-- The trouble lies with the transport; another attempt may do better. -/
def isTransport : Trouble → Bool
  | .decoding | .redirects => false
  | _ => true

theorem named?_name (t : Trouble) : named? t.name = some t := by cases t <;> decide

end Trouble

/-- Why a request has no answer that can be used. -/
inductive Fault where
  | address (e : UrlFault)
  /-- A header is not in ASCII. -/
  | beyondAscii (text : String)
  /-- A number in a body is infinite or none. -/
  | notFinite
  | trouble (t : Trouble) (text : String)
  /-- The answer does not report success. -/
  | status (code : Int)
  /-- The answer is no document. -/
  | notDocument
  /-- A document has a whole number that is too long. -/
  | tooLong (digits : Nat)
  /-- A value that the request is made of cannot be written. -/
  | unwritable (e : Parley.Fault)

namespace Fault

/-- How a character beyond ASCII is told. -/
def escapedChar (c : Char) : List Char :=
  if c.toNat < 0x100 then '\\' :: 'x' :: Text.hex 2 c.toNat
  else if c.toNat < 0x10000 then '\\' :: 'u' :: Text.hex 4 c.toNat
  else '\\' :: 'U' :: Text.hex 8 c.toNat

/-- Where a text leaves ASCII. -/
def asciiText (s : String) : String :=
  let isAscii := fun (c : Char) => c.toNat < 0x80
  let place := (s.toList.takeWhile isAscii).length
  let run := (s.toList.dropWhile isAscii).takeWhile (!isAscii ·)
  "'ascii' codec can't encode character" ++
    (match run with
      | [c] => " '" ++ String.ofList (escapedChar c) ++ "' in position " ++ Number.natText place
      | _ => "s in position " ++ Number.natText place ++ "-" ++
          Number.natText (place + run.length - 1)) ++
    ": ordinal not in range(128)"

/-- The text of a fault. -/
def message : Fault → String
  | .address e => e.message
  | .beyondAscii text => asciiText text
  | .notFinite => "Out of range float values are not JSON compliant"
  | .trouble _ text => text
  | .status code => "HTTP " ++ Number.intText code
  | .notDocument => "the answer is no document"
  | .tooLong digits => (Parley.Fault.tooLongToRead digits).message
  | .unwritable e => e.message

/-- The name of a fault's class. -/
def className : Fault → String
  | .address _ => "InvalidURL"
  | .beyondAscii _ => "UnicodeEncodeError"
  | .notFinite => "ValueError"
  | .trouble t _ => t.name
  | .status _ => "HTTPStatusError"
  | .notDocument => "JSONDecodeError"
  | .tooLong _ => "ValueError"
  | .unwritable e => e.className

end Fault

/-- What an exchange asks for. -/
inductive Op where
  | send (r : Request)
  | sleep (seconds : Rat)

/-- What it is told. -/
def Op.Reply : Op → Type
  | .send _ => Except (Trouble × String) Response
  | .sleep _ => Unit

/-- A program that sends requests. -/
abbrev Exchange := Program Op Op.Reply

namespace Response

/-- The header of a name. -/
def header? (r : Response) (name : String) : Option String :=
  (r.headers.find? fun e => e.1.toLower = name).map (·.2)

/-- The answer reports success. -/
def isSuccess (r : Response) : Bool := 200 ≤ r.status && r.status < 300

/-- The document that an answer holds; a mark of the byte order may stand before it. -/
def document (r : Response) : Except Fault Value :=
  let cs := r.content.toList
  match Json.read (String.ofList (if cs.head? = some '\ufeff' then cs.tail else cs)) with
  | .ok v => .ok v
  | .error (.malformed ..) => .error .notDocument
  | .error (.tooLong digits) => .error (.tooLong digits)

end Response
end Parley.Http
