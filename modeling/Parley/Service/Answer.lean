import Parley.Flow.Writing
import Parley.Http.Client
import Parley.Inbox.Handle
import Parley.Registry.Directory
import Parley.Service.Message
import Parley.Service.Place

/-!
# The service

The service publishes flows, takes messages of contacts and tells about sessions. A request leads to
an action: a reply that is known at once, a look at what there is, a change of the registry, or a
task of the inbox. Replies are documents with a status.

Main statement: `receive_nothing`, where there is no place nothing happens.
-/

namespace Parley.Service

/-- A reply. -/
structure Reply where
  status : Nat := 200
  body : Value

/-- Why a request fails without a reply. -/
inductive Fault where
  | unreadable (fault : Store.RowFault)
  | inbox (fault : Inbox.Fault)
  | register (fault : Registry.RegisterFault)
  /-- The document of the reply cannot be sent. -/
  | unwritable (fault : Http.Fault)

/-- A reply is sent when its document can be. -/
def Reply.sent (r : Reply) : Except Fault Reply :=
  match Http.checkBody (.json r.body) with
  | .ok _ => .ok r
  | .error e => .error (.unwritable e)

/-- What can be looked at. -/
structure View where
  registry : Registry
  store : Store
  now : Calendar.Moment
  /-- Ids for sessions that are kept without one. -/
  newId : Nat → String

/-- What a request leads to. -/
inductive Action where
  | reply (r : Reply)
  | look (f : View → Except Fault Reply)
  | change (f : Registry → Except Fault Reply × Registry)
  | task (t : Inbox.Task Reply)

/-- A reply that refuses a request. -/
def refusal (status : Nat) (detail : Value) : Reply := ⟨status, .object [("detail", detail)]⟩

/-- A reply that something is not there. -/
def notFound (what : String) : Reply := refusal 404 (.text what)

/-- A reply about a document that cannot be read. -/
def complaints (source : String) (document : Value) (cs : List Schema.Complaint) : Reply :=
  refusal 422 (.list (cs.map (Schema.Complaint.report source document)))

/-- A reply with a document that is written. -/
def shown (document : Except Parley.Fault Value) : Except Inbox.Fault Reply :=
  match document with
  | .ok v => .ok ⟨200, v⟩
  | .error e => .error (.unwritable e)

/-- A task whose value is replied. A refusal may be replied too. -/
def replied {α : Type} (t : Inbox.Task α) (f : α → Except Inbox.Fault Reply)
    (g : Inbox.Fault → Option Reply) : Inbox.Task Reply :=
  t.bind fun
    | .done a => .done (match f a with
      | .ok r => .done r
      | .error e => .refused e)
    | .refused e => .done (match g e with
      | some r => .done r
      | none => .refused e)
    | .abandoned => .done .abandoned

/-! ## Documents of requests -/

/-- The request says that its body is a document. -/
def statesDocument (r : Http.Request) : Bool :=
  match r.headers.get? "content-type" with
  | none => false
  | some stated =>
    let kind := Text.strip (String.ofList ((Text.lower stated).toList.takeWhile (· != ';')))
    kind = "application/json" ||
      "application/".toList.isPrefixOf kind.toList && "+json".toList.isSuffixOf kind.toList

/-- The document that a text denotes; a mark of the byte order may stand before it. -/
def readDocument (s : String) : Except Reply Value :=
  let cs := s.toList
  let cs := if cs.head? = some '\ufeff' then cs.tail else cs
  match Json.read (String.ofList cs) with
  | .ok v => .ok v
  | .error (.tooLong _) => .error (refusal 400 (.text "There was an error parsing the body"))
  | .error (.malformed what left) => .error <| refusal 422 <| .list
      [Schema.report [.text "body", .int (cs.length - left : Nat)] "json_invalid"
        "JSON decode error"
        (.object []) [("error", .text what.message)]]

/-- The document that comes with a request; null when none comes, and the text of the body when the
request does not say that it is a document. -/
def documentOf (r : Http.Request) : Except Reply Value :=
  match r.body with
  | .empty => .ok .null
  | .json v => .ok v
  | .text s =>
    if s = "" then .ok .null
    else if statesDocument r then readDocument s
    else .ok (.text s)

/-- Go on with what is read from the document of a request. -/
def withDocument {α : Type} (r : Http.Request) (read : Schema.Reader α) (f : α → Action) : Action :=
  match documentOf r with
  | .error reply => .reply reply
  | .ok document =>
    let read : Schema.Reader α := fun
      | .null => .refuse .missing
      | v => read v
    match (read document).toExcept with
    | .error cs => .reply (complaints "body" document cs)
    | .ok a => f a

/-! ## Places -/

/-- What listings tell of a flow. -/
def flowSummary (f : Flow) : Value :=
  .object [("id", .text f.id), ("name", .text f.name), ("version", .int f.version),
    ("is_active", .bool f.isActive), ("is_default", .bool f.isDefault),
    ("nodes", .int f.nodes.length), ("edges", .int f.edges.length)]

/-- What listings tell of a session: all but its history. -/
def sessionSummary (s : Session) : Except Parley.Fault Value :=
  s.dump.map fun
    | .object fields => .object (Entries.remove fields "history")
    | v => v

/-- The state of the service. -/
def health : Action :=
  .look fun w => .ok ⟨200,
    .object [("status", .text "healthy"), ("timestamp", .text w.now.textWithOffset),
      ("flows", .int w.registry.all.length), ("sessions", .int w.store.count)]⟩

/-- The flows. -/
def listFlows : Action := .look fun w => .ok ⟨200, .list (w.registry.all.map flowSummary)⟩

/-- Publish a flow. -/
def publish (raw : Value) : Action :=
  .change fun r =>
    match r.register raw with
    | .ok (r, f) => (.ok ⟨201, flowSummary f⟩, r)
    | .error (.invalid id errors) =>
      (.ok (refusal 422 (.object [("flow_id", id), ("errors", .texts errors)])), r)
    | .error e => (.error (.register e), r)

/-- A flow. -/
def showFlow (id : String) : Action :=
  .look fun w => match w.registry.get? id with
    | some f => (shown f.dump).mapError .inbox
    | none => .ok (notFound "Flow not found")

/-- Take a flow back. -/
def removeFlow (id : String) : Action :=
  .change fun r =>
    match r.get? id with
    | some _ => (.ok ⟨200, .object [("status", .text "deleted"), ("flow_id", .text id)]⟩,
        r.remove id)
    | none => (.ok (notFound "Flow not found"), r)

/-- Take a message. -/
def takeMessage (setting : Inbox.Setting) (m : Message) : Action :=
  .task <| replied (Inbox.handle setting m.contact (some m.text) m.flowId m.sessionId)
    (fun result => shown result.dump) fun
    | .unreadable _ | .unwritable _ => none
    | e => some (notFound e.message)

/-- The sessions within bounds. -/
def listSessions (params : Entries String) : Action :=
  let given : Fields := Entries.ofPairs (params.map fun e => (e.1, .text e.2))
  match (Bounds.read given).toExcept with
  | .error cs => .reply (complaints "query" (.object given) cs)
  | .ok bounds => .look fun w =>
    match w.store.list w.now w.newId bounds.status bounds.limit with
    | .ok sessions => (shown ((sessions.mapM sessionSummary).map .list)).mapError .inbox
    | .error e => .error (.unreadable e)

/-- A session. -/
def showSession (id : String) : Action :=
  .task <| replied (.ask (.load id) Inbox.Task.told) (fun
    | some s => shown s.dump
    | none => .ok (notFound "Session not found")) fun _ => none

/-- Release a session. -/
def releaseSession (id : String) : Action :=
  .task <| replied (Inbox.release id)
    (fun s => .ok ⟨200, .object [("session_id", .text s.id), ("status", .text s.status.name)]⟩) fun
    | .sessionNotFound _ => some (notFound "Session not found")
    | _ => none

/-- End a session. -/
def endSession (id : String) : Action :=
  .task <| replied (Inbox.finish id) (fun
    | true => .ok ⟨200, .object [("status", .text "deleted"), ("session_id", .text id)]⟩
    | false => .ok (notFound "Session not found")) fun _ => none

/-- What a request to a place leads to. -/
def visit (setting : Inbox.Setting) (r : Http.Request) : Place → Action
  | .health => health
  | .flows => if r.method = "POST" then withDocument r readObject publish else listFlows
  | .flow id => if r.method = "DELETE" then removeFlow id else showFlow id
  | .messages => withDocument r Message.read (takeMessage setting)
  | .sessions => listSessions r.url.params
  | .session id => if r.method = "DELETE" then endSession id else showSession id
  | .release id => releaseSession id

/-- What a request leads to. -/
def receive (setting : Inbox.Setting) (r : Http.Request) : Action :=
  match Place.find r.method (Text.Percent.decode r.url.path) with
  | .here place => visit setting r place
  | .methodRefused => .reply (refusal 405 (.text "Method Not Allowed"))
  | .elsewhere => .reply ⟨307, .text ""⟩
  | .nothing => .reply (notFound "Not Found")

/-- The registry that the service starts with: the flows of the settings, then those of a directory.
A directory that cannot be loaded to its end is passed over from there. -/
def start (flows : List Value) (files : List (String × Registry.Content))
    (yaml : Registry.TextReader := Registry.findYaml) : Except Registry.LoadFault Registry :=
  match Registry.registerAll {} flows with
  | (_, .error e) => .error (.register e)
  | (r, .ok _) =>
    match r.load files yaml with
    | (_, .error (.register e)) => .error (.register e)
    | (r, .error (.unreadable e)) => if e.className = "ValueError" then .ok r
        else .error (.unreadable e)
    | (r, _) => .ok r

/-- Where there is no place nothing happens. -/
theorem receive_nothing (setting : Inbox.Setting) {r : Http.Request}
    (h : Place.find r.method (Text.Percent.decode r.url.path) = .nothing) :
    receive setting r = .reply (notFound "Not Found") := by
  simp [receive, h]

end Parley.Service
