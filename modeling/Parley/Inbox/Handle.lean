import Parley.Inbox.Basic

/-!
# Handling messages

A message goes to the session it names, else to the contact's latest session unless that is
finished, else to a new session on the flow that the registry chooses. While a person has taken over
the message is only noted. Otherwise it is taken through one turn on the version of the flow that
the session is on, a ticket is opened when the turn hands off, and the session is saved.

All of this happens under the lock of the contact. A session is saved once, at the end; an abandoned
task saves nothing.
-/

namespace Parley.Inbox

/-- What messages are handled with. -/
structure Setting where
  policy : Policy
  team : Team

/-- The session for a message on a flow that the registry chose. -/
def newSession (flow : Flow) (contact : Contact) (id : String) (now : Calendar.Moment) : Session :=
  { id := id, flowId := flow.id, flowVersion := flow.version, contact := contact,
    vars := Entries.update flow.defaultVariables [("contact_id", .text contact.id),
      ("contact_name", .text contact.name), ("contact_phone", .text contact.phone)],
    startedAt := now, lastActivityAt := now }

/-- A new session for a message. -/
def beginSession (contact : Contact) (text : Option String) (flowId : String) : Task Session :=
  .ask (.resolve (text.getD "") flowId) fun
    | none => .refuse (if flowId = "" then .noFlow else .flowNotFound flowId)
    | some flow => .ask .newId fun id => .ask .now fun now => .give (newSession flow contact id now)

/-- The session for a message. -/
def findSession (contact : Contact) (text : Option String) (flowId sessionId : String) :
    Task Session :=
  if sessionId ≠ "" then
    .ask (.load sessionId) fun found => (Task.told found).andThen fun
      | some session => .give session
      | none => .refuse (.sessionNotFound sessionId)
  else
    .ask (.latest contact.id flowId) fun found => (Task.told found).andThen fun
      | some session => if session.isFinished then beginSession contact text flowId
          else .give session
      | none => beginSession contact text flowId

/-- The message is noted for the person who has taken over. -/
def noteForPerson (session : Session) (text : Option String) : Task Turn.Result :=
  .ask .now fun now =>
    let session := (session.assign "last_user_message" (.ofOption .text text)).touch now
    (Task.save session).andThen fun _ => .give
      { sessionId := session.id, flowId := session.flowId, state := .handoff,
        vars := session.vars, currentNodeId := session.currentNodeId }

/-- What a ticket tells of its session besides what the hand-off tells. -/
def ticketMetadata (session : Session) (h : Handoff) : Fields :=
  Entries.update h.metadata [("session_id", .text session.id), ("flow_id", .text session.flowId),
    ("contact_id", .text session.contact.id), ("contact_phone", .text session.contact.phone)]

/-- The id of a ticket, when one was opened: a ticket is an object with entries. -/
def ticketId? : Except Parley.Fault Value → Option Value
  | .ok (.object []) => none
  | .ok (.object fields) => some ((Entries.get? fields "id").getD (.text ""))
  | _ => none

/-- The ticket of a hand-off is opened: its id, when there is one. A ticket that fails is done
without. -/
def openTicket (setting : Setting) (session : Session) (h : Handoff) : Task (Option Value) :=
  if setting.team.backend then
    .ask (.ticket h.targetId h.priority.name h.reason
      (ticketMetadata session h) setting.policy.ticketBound)
      fun
      | none => .done .abandoned
      | some answer => .give (ticketId? answer)
  else .give none

/-- The ticket's id is written to the session and to the result. -/
def writeTicket (session : Session) (r : Turn.Result) : Option Value → Session × Turn.Result
  | none => (session, r)
  | some id =>
    (session.assign "handoff_ticket_id" id,
      { r with vars := r.vars.put "handoff_ticket_id" id })

/-- What follows a turn. -/
def settle (setting : Setting) : Turn.Ending → Task Turn.Result
  | .abandoned _ => .done .abandoned
  | .finished session r =>
    let ticket : Task (Option Value) := match r.handoff with
      | some h => openTicket setting session h
      | none => .give none
    ticket.andThen fun id =>
      let (session, r) := writeTicket session r id
      (Task.save session).andThen fun _ => .give r

/-- A session without the flow it is on. -/
def orphaned (session : Session) : Task Turn.Result :=
  (Task.save { session with status := .error }).andThen fun _ =>
    .refuse (.notRegistered session.flowId session.flowVersion)

/-- The message is taken through a turn. -/
def takeTurn (setting : Setting) (session : Session) (text : Option String) : Task Turn.Result :=
  .ask (.version session.flowId session.flowVersion) fun
    | none => orphaned session
    | some flow => .ask .now fun now =>
      ((Turn.run ⟨flow, setting.policy, setting.team⟩ now session text none).interpret
        fun op => Program.ask (Op.turn op)).bind (settle setting)

/-- A message of a contact, to a flow or a session that it may name. -/
def handle (setting : Setting) (contact : Contact) (text : Option String)
    (flowId sessionId : String) :
    Task Turn.Result :=
  .locked contact.id <| (findSession contact text flowId sessionId).andThen fun session =>
    if session.status = .handoff then noteForPerson session text else takeTurn setting session text

/-- The session with an id, which must be there. -/
def demand (id : String) : Task Session :=
  .ask (.load id) fun found => (Task.told found).andThen fun
    | some session => .give session
    | none => .refuse (.sessionNotFound id)

/-- A session that a person has taken over is given back; its next message begins the flow anew. -/
def giveBack (session : Session) : Task Session :=
  if session.status = .handoff then
    .ask .now fun now =>
      let session := { session with status := .active }.touch now
      (Task.save session).andThen fun _ => .give session
  else .give session

/-- Release a session. It is read again under the lock, with what was noted meanwhile. -/
def release (id : String) : Task Session :=
  (demand id).andThen fun session => .locked session.contact.id <| (demand id).andThen giveBack

/-- End a session, and tell whether there was one. -/
def finish (id : String) : Task Bool :=
  .ask (.delete id) fun
    | .ok removed => .give removed
    | .error e => .refuse (.unwritable e)

end Parley.Inbox
