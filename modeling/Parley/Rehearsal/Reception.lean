import Parley.Inbox.Handle
import Parley.Inbox.Locks
import Parley.Inbox.Basic
import Parley.Rehearsal.Conversation
import Parley.Store.File

/-!
# Rehearsed receptions

The inbox with a registry, a store and a cast, in virtual time. The store is in memory, or keeps a
file that is written at every change. Tasks are known by numbers, by which they visit the locks of
contacts. `gather` runs several tasks at once, each after a delay of its own.
-/

namespace Parley.Rehearsal

/-- What the tasks of an inbox share. -/
structure Reception where
  stage : Stage
  registry : Registry := {}
  runners : Inbox.Runners := []
  store : Store := {}
  /-- Where the store keeps its file, if it keeps one. -/
  directory : Option Store.Directory := none
  locks : Inbox.Locks := {}
  /-- How many sessions were begun. -/
  begun : Nat := 0
  now : Calendar.Moment

/-- An act over a part of the world. -/
def Act.within {W V α : Type} (get : W → V) (put : V → W → W) (p : Act V α) : Act W α :=
  p.interpret fun
    | .look => do
      let (t, w) ← Act.look
      return (t, get w)
    | .change f => Act.change fun w => put (f (get w)) w
    | .pause => Act.pause
    | .sleep moment => Act.sleep moment
    | .await ready => Act.await (ready ∘ get)

namespace Reception

/-- An act on the stage of a reception. -/
def onStage {α : Type} (p : Act Stage α) : Act Reception α :=
  p.within (·.stage) fun stage r => { r with stage := stage }

/-- The world as it is now. -/
def world : Act Reception Reception := do return (← Act.look).2

/-- A ticket within a bound. One that is not positive leaves no time to ask for it. -/
def ticket (cuts : Cuts) (q : Consultation) (bound : Option Binary64) :
    Act Stage (Option (Except Fault q.Answer)) :=
  if bound.any fun b => !Binary64.zero.lt b then do
    Act.pauses 3
    return some (.error .timedOut)
  else do
    match ← consult (eventAt cuts.abandoned ()) q bound with
    | .ok r => return some r
    | .error () => return none

/-- A session is saved. -/
def save (r : Reception) (session : Session) : Except Fault Unit × Reception :=
  match r.directory with
  | none => (session.checkFit, { r with store := r.store.save session })
  | some d =>
    let (f, d, saved) := Store.Filed.save { store := r.store } d 0 session
    (saved, { r with store := f.store, directory := some d })

/-- A session is deleted. -/
def delete (r : Reception) (id : String) : Except Fault Bool × Reception :=
  match r.directory with
  | none =>
    let (store, removed) := r.store.delete id
    (removed, { r with store := store })
  | some d =>
    let (f, d, removed) := Store.Filed.delete { store := r.store } d 0 id
    (removed, { r with store := f.store, directory := some d })

/-- A request of the inbox by a task. -/
def play (newId : Nat → String) (task : Nat) (cuts : Cuts) :
    (op : Inbox.Op) → Act Reception op.Reply
  | .acquire contact => do
    Act.change fun r => { r with locks := r.locks.enter task contact }
    Act.await fun r => r.locks.isInside task contact
    return true
  | .release contact => Act.change fun r => { r with locks := r.locks.leave task contact }
  | .now => do return (← world).now
  | .newId => Act.transact fun r => (newId (r.begun + 1), { r with begun := r.begun + 1 })
  | .load id => do
    let r ← world
    return r.store.get r.now (newId (r.begun + 1)) id
  | .latest contact flowId => do
    let r ← world
    return r.store.latest r.now (newId (r.begun + 1)) contact flowId
  | .save session => Act.transact (Reception.save · session)
  | .delete id => Act.transact (Reception.delete · id)
  | .resolve text flowId => do return (← world).registry.resolve text flowId
  | .version id version => Act.transact fun r =>
    let (runner, runners) := r.runners.pick r.registry id version
    (runner.map (·.index.flow), { r with runners := runners })
  | .turn op => onStage (playTurn cuts op)
  | .ticket target priority reason metadata bound =>
    onStage (ticket cuts (.createTicket target priority reason metadata) bound)

/-- A task of the inbox. -/
def run {α : Type} (newId : Nat → String) (task : Nat) (cuts : Cuts) (t : Inbox.Task α) :
    Act Reception (Inbox.Outcome α) :=
  t.interpret (play newId task cuts)

end Reception

/-- An act that begins at a moment. -/
def beginAt {W α : Type} (moment : Option Rat) (p : Act W α) : Act W α :=
  match moment with
  | none => p
  | some t => do
    Act.sleep t
    p

/-- Run several acts at once until all are done, for so many turns at most: the values in the order
of the acts, the numbers of the acts in the order in which they finished, the clock and the
world. -/
def gather {W α : Type} (turns : Nat) (ps : List (Act W α)) (clock : Rat) (world : W) :
    List (Option α) × List Nat × Rat × W :=
  let start : Machine W α :=
    { world := world, clock := clock, ready := ps.zipIdx.map fun p => (p.2, p.1) }
  let m := start.run turns
  ((List.range ps.length).map (List.lookup · m.finished), m.finished.map (·.1), m.clock, m.world)

end Parley.Rehearsal
