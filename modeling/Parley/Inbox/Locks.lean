import Parley.Value.Fields

/-!
# The locks of contacts

Messages of one contact are handled one after the other. For each contact that is being served there
is a lock; tasks visit it in the order in which they come, and the first of them is inside. A lock
is kept for as long as somebody uses it: the number of its users is counted, and with the last one
both the lock and the count are dropped. The next visit makes a new lock.
-/

namespace Parley.Inbox

/-- A task at a lock: inside, or waiting to be. -/
structure Visit where
  task : Nat
  contact : String
  lock : Nat
  inside : Bool
  deriving DecidableEq, Repr

/-- The locks in use. -/
structure Locks where
  /-- The lock of a contact. -/
  serving : Entries Nat := []
  /-- How many tasks are inside or wait. -/
  users : Entries Nat := []
  /-- The visits in the order in which they began. -/
  visits : List Visit := []
  /-- How many locks were made. -/
  made : Nat := 0

namespace Locks

/-- The lock of a contact, which is made if there is none. -/
def lockOf (l : Locks) (contact : String) : Nat × Locks :=
  match l.serving.get? contact with
  | some lock => (lock, l)
  | none => (l.made, { l with serving := l.serving.put contact l.made, made := l.made + 1 })

/-- How many tasks use the lock of a contact. -/
def usersOf (l : Locks) (contact : String) : Nat := (l.users.get? contact).getD 0

/-- A task comes to the lock of a contact; it is inside at once when nobody else is there. -/
def enter (l : Locks) (task : Nat) (contact : String) : Locks :=
  let (lock, l) := l.lockOf contact
  { l with
    users := l.users.put contact (l.usersOf contact + 1)
    visits := l.visits ++ [⟨task, contact, lock, !l.visits.any (·.lock == lock)⟩] }

/-- The first of those who wait for a lock is let in. -/
def letIn (lock : Nat) : List Visit → List Visit
  | [] => []
  | v :: rest => if v.lock = lock then { v with inside := true } :: rest else v :: letIn lock rest

/-- The user of a contact's lock is no user any more. -/
def drop (l : Locks) (contact : String) : Locks :=
  if l.usersOf contact ≤ 1 then
    { l with serving := l.serving.remove contact, users := l.users.remove contact }
  else { l with users := l.users.put contact (l.usersOf contact - 1) }

/-- A task leaves the lock of a contact, from inside or while it waits. -/
def leave (l : Locks) (task : Nat) (contact : String) : Locks :=
  match l.visits.find? fun v => v.task == task && v.contact == contact with
  | none => l
  | some v =>
    let rest := l.visits.erase v
    { l.drop contact with visits := if v.inside then letIn v.lock rest else rest }

/-- A task is inside the lock of a contact. -/
def isInside (l : Locks) (task : Nat) (contact : String) : Bool :=
  l.visits.any fun v => v.task == task && v.contact == contact && v.inside

/-- Who comes first is inside. -/
theorem isInside_enter_empty (task : Nat) (contact : String) :
    (enter {} task contact).isInside task contact = true := by
  simp [enter, isInside, lockOf, Entries.get?]

/-- Nothing remains of the only visit. -/
theorem leave_enter_empty (task : Nat) (contact : String) :
    (leave (enter {} task contact) task contact).serving = [] ∧
      (leave (enter {} task contact) task contact).users = [] := by
  simp [leave, enter, drop, lockOf, usersOf, Entries.get?, Entries.put, Entries.remove]

end Locks
end Parley.Inbox
