import Parley.Store.File

/-!
# Cabinets

Stores that are opened one after the other on one directory, in virtual time. A store that is
replaced is not in use any more, but the flush that is due in it still comes.
-/

namespace Parley.Rehearsal

open Store (Directory Filed)

/-- A directory and the stores that are open on it. -/
structure Cabinet where
  directory : Directory := {}
  inUse : Filed := {}
  replaced : List Filed := []
  clock : Rat := 0

namespace Cabinet

/-- The store in use is changed. -/
def update {α : Type} (c : Cabinet) (f : Filed → Directory → Rat → Filed × Directory × α) :
    Cabinet × α :=
  let (inUse, directory, a) := f c.inUse c.directory c.clock
  ({ c with inUse := inUse, directory := directory }, a)

/-- Another store is opened on the directory; the one in use stays when that fails. -/
def reopen (c : Cabinet) : Cabinet × Except Fault Unit :=
  match Filed.ofDirectory c.inUse.interval c.directory with
  | .ok f => ({ c with inUse := f, replaced := c.replaced ++ [c.inUse] }, .ok ())
  | .error e => (c, .error e)

/-- The first moment up to `bound` at which a flush is due. -/
def nextDue (c : Cabinet) (bound : Rat) : Option Rat :=
  ((c.inUse :: c.replaced).filterMap (·.due)).foldl
    (fun best t => if t ≤ bound && best.all (t < ·) then some t else best) none

/-- A flush that is due at the moment is carried out. -/
def fireAt (moment : Rat) (e : Filed × Directory) : Filed × Directory :=
  if e.1.due = some moment then
    let (f, d, _) := e.1.fire e.2
    (f, d)
  else e

/-- The flushes that are due at a moment are carried out, those of the replaced stores first. -/
def fireAll (moment : Rat) : Directory → List Filed → List Filed × Directory
  | d, [] => ([], d)
  | d, f :: rest =>
    let (f, d) := fireAt moment (f, d)
    let (rest, d) := fireAll moment d rest
    (f :: rest, d)

/-- Wait until a moment, through so many moments at most at which flushes are due. -/
def waitUntil (moment : Rat) : Nat → Cabinet → Cabinet
  | 0, c => { c with clock := moment }
  | n + 1, c =>
    match c.nextDue moment with
    | none => { c with clock := moment }
    | some t =>
      let (replaced, d) := fireAll t c.directory c.replaced
      let (inUse, d) := fireAt t (c.inUse, d)
      waitUntil moment n { directory := d, inUse := inUse, replaced := replaced, clock := t }

/-- Wait for some seconds. Every store has one flush due at most. -/
def sleep (c : Cabinet) (seconds : Rat) : Cabinet :=
  waitUntil (c.clock + if seconds < 0 then 0 else seconds) (c.replaced.length + 1) c

end Cabinet
end Parley.Rehearsal
