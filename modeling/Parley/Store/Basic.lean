import Parley.Calendar.Reading
import Parley.Session.Document
import Parley.Value.Access

/-!
# The store of sessions

The store keeps a document of every session, under the id of the session and in the order in which
they were first saved, and for every contact the ids of the sessions that were saved for it. What is
handed out is read from the documents anew, so nothing that is done to it changes the store.

Documents may come from elsewhere (`Store.ofRows`), and then reading them may fail.

Main statements: `get_put`, what was put in its place is what is read, and `rows_delete`.
-/

namespace Parley

/-- The stored sessions. -/
structure Store where
  rows : Entries Value := []
  /-- The ids of the sessions that were saved for a contact. -/
  index : Entries (List String) := []

namespace Store

/-- Why stored sessions cannot be told. -/
inductive RowFault where
  /-- A document is no session. -/
  | malformed (complaints : List Schema.Complaint)
  /-- A document lacks something that it is looked up by. -/
  | odd (fault : Fault)

/-- The session of a document; `now` and `newId` stand in for what the document leaves open. -/
def restore (now : Calendar.Moment) (newId : String) (row : Value) : Except RowFault Session :=
  (Session.ofValue now newId row).toExcept.mapError .malformed

/-- The document leaves the id of its session open. -/
def lacksId (row : Value) : Bool := row.asObject?.any fun fields => !fields.has "session_id"

/-- The sessions of documents, with new ids for those that have none. -/
def restoreAll (now : Calendar.Moment) (newId : Nat → String) : Nat → List Value →
    Except RowFault (List Session)
  | _, [] => .ok []
  | n, row :: rest => do
    let session ← restore now (newId n) row
    return session :: (← restoreAll now newId (if lacksId row then n + 1 else n) rest)

/-- The session with an id. -/
def get (s : Store) (now : Calendar.Moment) (newId : String) (id : String) :
    Except RowFault (Option Session) :=
  match s.rows.get? id with
  | none => .ok none
  | some row => if row.isTruthy then (restore now newId row).map some else .ok none

/-- The ids that were saved for a contact. -/
def idsOf (s : Store) (contact : String) : List String := (s.index.get? contact).getD []

/-- An id joins others, unless it is among them. -/
def joinId (ids : List String) (id : String) : List String := if id ∈ ids then ids else ids ++ [id]

/-- Put the document of a session in its place. -/
def put (s : Store) (session : Session) : Store :=
  { rows := s.rows.put session.id session.toValue,
    index := s.index.put session.contact.id (joinId (s.idsOf session.contact.id) session.id) }

/-- Save a session: its dump takes its place. A session that cannot be written changes nothing, and
saving it fails (`Session.checkFit`). -/
def save (s : Store) (session : Session) : Store :=
  if session.fits then s.put session.dumped else s

/-- The contact that a document names, where its id is text. -/
def contactOf (row : Value) : Except Fault (Option String) := do
  match ← (← row.entry "contact").entry "id" with
  | .text id => return some id
  | v@(.list _) | v@(.object _) => throw (.notHashable v.kindWord)
  | _ => return none

/-- The ids of a contact without one of them. -/
def dropId (index : Entries (List String)) (contact id : String) : Entries (List String) :=
  match index.get? contact with
  | some ids => index.put contact (ids.erase id)
  | none => index

/-- Delete a session, and tell whether there was one. Its row goes even if its contact cannot be
told. -/
def delete (s : Store) (id : String) : Store × Except Fault Bool :=
  let rows := s.rows.remove id
  match s.rows.get? id with
  | none | some .null => ({ s with rows := rows }, .ok false)
  | some row =>
    match contactOf row with
    | .error e => ({ s with rows := rows }, .error e)
    | .ok none => ({ s with rows := rows }, .ok true)
    | .ok (some contact) => ({ rows := rows, index := dropId s.index contact id }, .ok true)

/-- The mark of universal time written as an offset. -/
def zuluAsOffset (text : String) : String :=
  String.ofList (text.toList.flatMap fun c => if c = 'Z' then "+00:00".toList else [c])

/-- When the session of a document was last active. -/
def lastActivity (row : Value) : Except Fault Calendar.Moment := do
  match ← row.entry "last_activity_at" with
  | .text t =>
    match Calendar.readIso? (zuluAsOffset t) with
    | some m => return m
    | none => throw (.notMoment (zuluAsOffset t))
  | v => throw (.noAttribute v.kindWord "replace")

/-- The first of the latest among the documents and the best one so far. -/
def latestOf : Calendar.Moment × Value → List Value → Except Fault Value
  | best, [] => .ok best.2
  | best, row :: rest => do
    let moment ← lastActivity row
    match moment.compare? best.1 with
    | none => throw .incomparableMoments
    | some .gt => latestOf (moment, row) rest
    | some _ => latestOf best rest

/-- The document is one of a session on the flow; every flow will do when none is named. -/
def isOnFlow (flowId : String) (row : Value) : Except Fault Bool :=
  if flowId = "" then .ok true else do return (← row.entry "flow_id").same (.text flowId)

/-- The documents that pass a test. -/
def filterRows (test : Value → Except Fault Bool) : List Value → Except Fault (List Value)
  | [] => .ok []
  | row :: rest => do
    let passes ← test row
    let more ← filterRows test rest
    return if passes then row :: more else more

/-- The document of the session of a contact that was active last, perhaps among those on one flow.
-/
def latestRow (s : Store) (contact flowId : String) : Except Fault (Option Value) := do
  match ← filterRows (isOnFlow flowId) ((s.idsOf contact).filterMap s.rows.get?) with
  | [] => return none
  | row :: rest => return some (← latestOf (← lastActivity row, row) rest)

/-- The session of a contact that was active last, perhaps among those on one flow. -/
def latest (s : Store) (now : Calendar.Moment) (newId : String) (contact flowId : String) :
    Except RowFault (Option Session) := do
  match ← (s.latestRow contact flowId).mapError RowFault.odd with
  | none => return none
  | some row => return some (← restore now newId row)

/-- The document is one of a session with the status; every status will do when none is named. -/
def hasStatus (status : Option Session.Status) (row : Value) : Except Fault Bool :=
  match status with
  | none => .ok true
  | some st => do return (← row.entry "status").same (.text st.name)

/-- The first is not less recent than the second. -/
def notBefore (a b : Calendar.Moment × Value) : Bool := a.1.compare? b.1 != some .lt

/-- Documents in descending order of activity, those of one moment as they came. -/
def byActivity (rows : List Value) : Except Fault (List Value) := do
  let keyed ← rows.mapM fun row => return (← lastActivity row, row)
  if keyed.any (·.1.offset.isNone) && keyed.any (·.1.offset.isSome) then throw .incomparableMoments
  return (keyed.mergeSort notBefore).map (·.2)

/-- The first items up to a limit; a negative limit leaves out so many of the last. -/
def upTo {α : Type} (limit : Int) (items : List α) : List α :=
  if 0 ≤ limit then items.take limit.toNat else items.take (items.length - limit.natAbs)

/-- The sessions that were active last, perhaps those of one status. -/
def list (s : Store) (now : Calendar.Moment) (newId : Nat → String) (status : Option Session.Status)
    (limit : Int) : Except RowFault (List Session) := do
  let rows ← (filterRows (hasStatus status) (s.rows.map (·.2)) >>= byActivity).mapError RowFault.odd
  restoreAll now newId 0 (upTo limit rows)

/-- How many sessions are stored. -/
def count (s : Store) : Nat := s.rows.length

/-- The index of documents: every document's id joins those of its contact. -/
def indexOf : Entries (List String) → Entries Value → Except Fault (Entries (List String))
  | index, [] => .ok index
  | index, (id, row) :: rest => do
    match ← contactOf row with
    | some contact => indexOf (index.put contact ((index.get? contact).getD [] ++ [id])) rest
    | none => indexOf index rest

/-- A store of documents. -/
def ofRows (rows : Entries Value) : Except Fault Store := do return ⟨rows, ← indexOf [] rows⟩

/-- The documents after one was put in its place. -/
theorem rows_put (s : Store) (session : Session) :
    (s.put session).rows = s.rows.put session.id session.toValue := rfl

/-- What was put last is what is read. -/
theorem get_put (s : Store) (session : Session) (now : Calendar.Moment) (newId id : String) :
    (s.put session).get now newId id =
      if session.id = id then (restore now newId session.toValue).map some
        else s.get now newId id := by
  unfold get
  rw [rows_put, Entries.get?_put]
  by_cases h : session.id = id
  · rw [if_pos h, if_pos h]
    rfl
  · rw [if_neg h, if_neg h]

/-- A session that can be written is saved as its dump. -/
theorem save_of_fits (s : Store) {session : Session} (h : session.fits = true) :
    s.save session = s.put session.dumped := if_pos h

/-- A session that cannot be written changes nothing. -/
theorem save_of_not_fits (s : Store) {session : Session} (h : session.fits = false) :
    s.save session = s := if_neg (h ▸ Bool.false_ne_true)

/-- What holds of a store, and of it with the dump of a session in its place, holds after the save.
-/
theorem save_cases {p : Store → Prop} {s : Store} {session : Session} (h : p s)
    (hput : session.fits = true → p (s.put session.dumped)) : p (s.save session) := by
  cases hf : session.fits with
  | false => rwa [save_of_not_fits s hf]
  | true =>
    rw [save_of_fits s hf]
    exact hput hf

/-- The row of a deleted session is gone, whatever else happens. -/
theorem rows_delete (s : Store) (id : String) : (s.delete id).1.rows = s.rows.remove id := by
  unfold delete
  dsimp only
  split
  · rfl
  · rfl
  · split <;> rfl

end Store
end Parley
