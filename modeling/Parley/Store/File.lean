import Parley.Json.Printer
import Parley.Json.Reader
import Parley.Store.Basic

/-!
# Stores with a file

A store may keep a file of its documents. It is written whenever a session is saved or deleted, or,
where an interval is set, at the end of an interval that begins with the first change: until then
the store is dirty and a flush is due.

A file that holds no document, or one that is no object, opens as an empty store. Whole numbers with
more digits than are written cannot be kept in a file: where one is stored, a flush fails and leaves
the file as it was.
-/

namespace Parley.Store

/-- What is found in a file. -/
inductive Content where
  /-- A document. -/
  | document (v : Value)
  /-- Nothing that can be read. -/
  | garbage
  /-- A document but for a whole number with too many digits. -/
  | tooLong (digits : Nat)

/-- What a text holds. -/
def Content.ofText (text : String) : Content :=
  match Json.read text with
  | .ok v => .document v
  | .error (.malformed ..) => .garbage
  | .error (.tooLong digits) => .tooLong digits

/-- The directory of a file of sessions. -/
structure Directory where
  file : Option Content := none
  /-- Files can be written in it. -/
  writable : Bool := true

/-- The store that the file of a directory holds. -/
def ofFile : Option Content → Except Fault Store
  | none => .ok {}
  | some .garbage => .ok {}
  | some (.tooLong digits) => .error (.tooLongToRead digits)
  | some (.document (.object rows)) => ofRows rows
  | some (.document _) => .ok {}

/-- A store with a file. -/
structure Filed where
  store : Store := {}
  /-- Seconds between a change and the flush; every change is flushed when not positive. -/
  interval : Rat := 0
  dirty : Bool := false
  /-- When the next flush is due. -/
  due : Option Rat := none

namespace Filed

/-- Open a store on a directory. -/
def ofDirectory (interval : Rat) (d : Directory) : Except Fault Filed := do
  return { store := ← ofFile d.file, interval := interval }

/-- Write the file. It is replaced once all of it is written. -/
def flush (f : Filed) (d : Directory) : Directory × Except Fault Unit :=
  if !d.writable then (d, .error .cannotWrite)
  else if (Value.object f.store.rows).hasLongInt then (d, .error .tooLongToWrite)
  else ({ d with file := some (.document (.object f.store.rows)) }, .ok ())

/-- The store has changed. -/
def mark (f : Filed) (d : Directory) (clock : Rat) : Filed × Directory × Except Fault Unit :=
  if f.interval ≤ 0 then (f, f.flush d)
  else ({ f with dirty := true, due := some (f.due.getD (clock + f.interval)) }, d, .ok ())

/-- The flush that was due. -/
def fire (f : Filed) (d : Directory) : Filed × Directory × Except Fault Unit :=
  let f' := { f with dirty := false, due := none }
  if f.dirty then (f', f.flush d) else (f', d, .ok ())

/-- Flush at once; nothing is due any more. -/
def flushAll (f : Filed) (d : Directory) : Filed × Directory × Except Fault Unit :=
  ({ f with dirty := false, due := none }, f.flush d)

/-- Save a session. One that cannot be written changes nothing. -/
def save (f : Filed) (d : Directory) (clock : Rat) (session : Session) :
    Filed × Directory × Except Fault Unit :=
  match session.checkFit with
  | .ok () => Filed.mark { f with store := f.store.save session } d clock
  | .error e => (f, d, .error e)

/-- Delete a session, and tell whether there was one. -/
def delete (f : Filed) (d : Directory) (clock : Rat) (id : String) :
    Filed × Directory × Except Fault Bool :=
  let (store, r) := f.store.delete id
  let f := { f with store := store }
  match r with
  | .ok true =>
    let (f, d, r) := f.mark d clock
    (f, d, r.map fun _ => true)
  | r => (f, d, r)

/-- A session that can be written is a change. -/
theorem save_of_fits (f : Filed) (d : Directory) (clock : Rat) {session : Session}
    (h : session.fits = true) :
    f.save d clock session = Filed.mark { f with store := f.store.save session } d clock := by
  rw [save, Session.checkFit, if_pos h]

/-- A session that cannot be written changes nothing. -/
theorem save_of_not_fits (f : Filed) (d : Directory) (clock : Rat) {session : Session}
    (h : session.fits = false) : f.save d clock session = (f, d, .error .tooDeep) := by
  rw [save, Session.checkFit, h]
  rfl

/-- After a flush to a directory that takes it, the file holds the documents of the store if they
can be written. -/
theorem file_flush (f : Filed) {d : Directory} (h : d.writable = true)
    (hs : (Value.object f.store.rows).hasLongInt = false) :
    (f.flush d).1.file = some (.document (.object f.store.rows)) := by
  simp [flush, h, hs]

end Filed
end Parley.Store
