import Parley.Http.Message
import Parley.Text.Bases

/-!
# Clients of the web

A client prepares requests below its base address, with its headers, and sends them. An answer may
send it on to another address. A client that follows does so twenty times; one that does not still
refuses an answer whose address is none. A request to another host does not tell who sends it, and
one that is turned into a look-up goes without its body.

Main statements: `follow_answered`, an answer that sends nowhere is what the client was told.
-/

namespace Parley.Http

mutual

/-- All numbers of a value can be written in a document. -/
def isWritable : Value → Bool
  | .float x => x.toRat?.isSome
  | .list items => areWritable items
  | .object fields => areWritableFields fields
  | _ => true

/-- All numbers of the items can be written. -/
def areWritable : List Value → Bool
  | [] => true
  | v :: rest => isWritable v && areWritable rest

/-- All numbers of the entries can be written. -/
def areWritableFields : List (String × Value) → Bool
  | [] => true
  | (_, v) :: rest => isWritable v && areWritableFields rest

end

/-- A text of a header, which must be ASCII. -/
def headerText (s : String) : Except Fault String :=
  if s.toList.all (·.toNat < 0x80) then .ok s else .error (.beyondAscii s)

/-- Headers by names in small letters; those of one name are put together. -/
def readHeaders : Entries String → Entries String → Except Fault (Entries String)
  | done, [] => .ok done
  | done, (name, value) :: rest => do
    let name := (← headerText name).toLower
    let value ← headerText value
    readHeaders (done.put name (match done.get? name with
      | some before => before ++ ", " ++ value
      | none => value)) rest

/-- The header that tells who sends a request, when the address does. -/
def credentials (u : Url) : Entries String :=
  let (name, secret) := Url.cutAt ':' u.person.toList
  let name := Text.Percent.bytes name
  let secret := Text.Percent.bytes (secret.getD [])
  if name.isEmpty && secret.isEmpty then []
  else [("authorization", "Basic " ++ String.ofList (Text.Base64.encode (name ++ 58 :: secret)))]

/-- A body that can be sent. -/
def checkBody : Body → Except Fault Body
  | .json v =>
    if !isWritable v then .error .notFinite
    else if v.hasLongInt then .error (.unwritable .tooLongToWrite) else .ok (.json v)
  | b => .ok b

/-- A client. -/
structure Client where
  /-- The address that relative addresses continue. -/
  base : String := ""
  headers : Entries String := []
  timeout : Value
  followsRedirects : Bool := false

namespace Client

/-- A request of a client. Named texts take the place of the query; none of them leaves it as it is.
-/
def prepare (c : Client) (method address : String) (params : Option (Entries String))
    (headers : Entries String) (body : Body) : Except Fault Request := do
  let base ← (Url.read c.base).mapError .address
  let own ← readHeaders [] c.headers
  let url ← (Url.read address).mapError .address
  let url ← (base.below url).mapError .address
  let url := match params with
    | some pairs => url.withParams pairs
    | none => url
  let headers := own.update (← readHeaders [] headers)
  let body ← checkBody body
  let headers := match body with
    | .json _ => if headers.has "content-type" then headers
        else headers.put "content-type" "application/json"
    | _ => headers
  return { method := method.toUpper, url := url, headers := headers.update (credentials url),
           body := body, timeout := c.timeout }

/-- The number behind the host of an address, or the usual one of its scheme. -/
def portNumberOf (u : Url) : Option Int :=
  if u.portNumber.isSome then u.portNumber else Url.usualPortNumber u.scheme

/-- The addresses have one scheme, host and number behind it. -/
def sameOrigin (u v : Url) : Bool :=
  u.scheme == v.scheme && u.host == v.host && portNumberOf u == portNumberOf v

/-- The second address is the secure one of the first. -/
def isUpgrade (u v : Url) : Bool :=
  u.host == v.host && u.scheme == "http" && portNumberOf u == some 80 && v.scheme == "https" &&
    portNumberOf v == some 443

/-- The method of the request that follows an answer. -/
def methodAfter (status : Int) (method : String) : String :=
  if (status = 303 || status = 302) && method != "HEAD" then "GET"
  else if status = 301 && method = "POST" then "GET"
  else method

/-- The address that a request is sent on to. -/
def urlAfter (u : Url) (location : String) : Except Fault Url :=
  match Url.read location with
  | .error e =>
    .error (.trouble .remoteProtocol ("Invalid URL in location header: " ++ e.message ++ "."))
  | .ok v => do
    let hostless := v.scheme != "" && v.host = ""
    if hostless then (Url.checkPath true true v.path.toList).mapError .address
    let v := u.join (if hostless then { v with host := u.host } else v)
    return (if v.fragment.getD "" = "" && u.fragment.getD "" != ""
      then { v with fragment := u.fragment } else v)

/-- The request that follows an answer. -/
def requestAfter (r : Request) (status : Int) (location : String) : Except Fault Request := do
  let url ← urlAfter r.url location
  let method := methodAfter status r.method
  let headers := if sameOrigin url r.url || isUpgrade r.url url
    then r.headers else r.headers.remove "authorization"
  return { r with method := method, url := url, headers := headers.remove "cookie",
                  body := if method != r.method && method = "GET" then .empty else r.body }

/-- Where an answer sends the client. -/
def location? (a : Response) : Option String :=
  if [301, 302, 303, 307, 308].contains a.status then a.header? "location" else none

/-- What a reply to a request leaves: an answer that stands, or the request that it sends on to. -/
def settle (c : Client) (r : Request) :
    Except (Trouble × String) Response → Except Fault (Response ⊕ Request)
  | .error (t, text) => .error (.trouble t text)
  | .ok a =>
    match location? a with
    | none => .ok (.inl a)
    | some location => (requestAfter r a.status location).map fun next =>
        if c.followsRedirects then .inr next else .inl a

/-- Send a request, and follow the answers so many times. -/
def follow (c : Client) (left : Nat) (r : Request) : Exchange (Except Fault Response) :=
  (Program.ask (Op.send r)).bind fun reply =>
    match c.settle r reply with
    | .error e => .done (.error e)
    | .ok (.inl a) => .done (.ok a)
    | .ok (.inr next) =>
      match left with
      | 0 => .done (.error (.trouble .redirects "Exceeded maximum allowed redirects."))
      | left + 1 => follow c left next

/-- How often a client follows. -/
def redirectLimit : Nat := 20

/-- Prepare a request and send it. -/
def send (c : Client) (method address : String) (params : Option (Entries String))
    (headers : Entries String) (body : Body) : Exchange (Except Fault Response) :=
  match c.prepare method address params headers body with
  | .error e => .done (.error e)
  | .ok r => follow c redirectLimit r

/-- An answer that names no other place settles a request. -/
theorem settle_answered (c : Client) (r : Request) {a : Response} (h : location? a = none) :
    c.settle r (.ok a) = .ok (.inl a) := by
  simp [settle, h]

/-- A client that gets such an answer follows it nowhere. -/
theorem follow_answered (c : Client) (left : Nat) (r : Request) :
    ∃ next, follow c left r = .request (.send r) next ∧
      ∀ a : Response, location? a = none → next (.ok a) = .done (.ok a) := by
  unfold follow
  refine ⟨_, rfl, fun a h => ?_⟩
  simp [Program.bind, c.settle_answered r h]

end Client
end Parley.Http
