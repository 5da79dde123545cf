import Parley.Program

/-!
# Acts in virtual time

An act is a program over a shared world. It looks at the world and the clock, changes the world,
lets others run, sleeps until a moment, or awaits a condition of the world. The clock stands still
while anyone can run and then jumps to the next moment at which somebody wakes.

`Act.alone` runs one act that shares the world with nobody. `Machine.run` runs several, each in
turn until it pauses, those that have waited longest first.
-/

namespace Parley.Rehearsal

/-- A request of an act to the world of kind `W` it runs in. -/
inductive Op (W : Type) where
  /-- The clock, in seconds, and the world. -/
  | look
  | change (f : W → W)
  /-- Let the others run. -/
  | pause
  | sleep (moment : Rat)
  | await (ready : W → Bool)

/-- The replies to a request. -/
def Op.Reply {W : Type} : Op W → Type
  | .look => Rat × W
  | .change _ => Unit
  | .pause => Unit
  | .sleep _ => Unit
  | .await _ => Unit

/-- An act over a world. -/
abbrev Act (W : Type) := Program (Op W) Op.Reply

namespace Act

variable {W α : Type}

/-- The clock and the world. -/
def look : Act W (Rat × W) := Program.ask Op.look

/-- The clock. -/
def clock : Act W Rat := do return (← look).1

/-- Change the world. -/
def change (f : W → W) : Act W Unit := Program.ask (Op.change f)

/-- Change the world, which yields a value besides. -/
def transact (f : W → α × W) : Act W α := do
  let (_, w) ← look
  change fun _ => (f w).2
  return (f w).1

/-- Let the others run. -/
def pause : Act W Unit := Program.ask Op.pause

/-- Let the others run several times. -/
def pauses : Nat → Act W Unit
  | 0 => pure ()
  | n + 1 => do pause; pauses n

/-- Sleep until a moment. -/
def sleep (moment : Rat) : Act W Unit := Program.ask (Op.sleep moment)

/-- Wait for a condition. -/
def await (ready : W → Bool) : Act W Unit := Program.ask (Op.await ready)

/-- An act that has the world to itself: its value, and the clock and the world in the end. A
condition that it awaits cannot change any more and is passed over. -/
def alone : Act W α → Rat → W → α × Rat × W
  | .done a, t, w => (a, t, w)
  | .request .look next, t, w => alone (next (t, w)) t w
  | .request (.change f) next, t, w => alone (next ()) t (f w)
  | .request .pause next, t, w => alone (next ()) t w
  | .request (.sleep moment) next, t, w => alone (next ()) (max t moment) w
  | .request (.await _) next, t, w => alone (next ()) t w

end Act

/-- Several acts over one world, known by numbers. -/
structure Machine (W α : Type) where
  world : W
  clock : Rat := 0
  /-- Those that can run, in the order of their turns. -/
  ready : List (Nat × Act W α) := []
  /-- Those that sleep, in the order of their moments. -/
  asleep : List (Rat × Nat × Act W α) := []
  /-- Those that await a condition. -/
  waiting : List ((W → Bool) × Nat × Act W α) := []
  /-- Those that are done, in the order in which they finished. -/
  finished : List (Nat × α) := []

namespace Machine

variable {W α : Type}

/-- An act joins those that can run. -/
def enqueue (m : Machine W α) (id : Nat) (p : Act W α) : Machine W α :=
  { m with ready := m.ready ++ [(id, p)] }

/-- Those whose condition has come about can run. -/
def wake (m : Machine W α) : Machine W α :=
  let (up, still) := m.waiting.partition fun e => e.1 m.world
  { m with ready := m.ready ++ up.map (·.2), waiting := still }

/-- A sleeper among those that sleep; of one moment, the newer sleeper comes later. -/
def insertSleeper (e : Rat × Nat × Act W α) :
    List (Rat × Nat × Act W α) → List (Rat × Nat × Act W α)
  | [] => [e]
  | d :: rest => if e.1 < d.1 then e :: d :: rest else d :: insertSleeper e rest

/-- Run an act until it pauses. -/
def resume (id : Nat) : Act W α → Machine W α → Machine W α
  | .done a, m => { m.wake with finished := m.finished ++ [(id, a)] }
  | .request .look next, m => resume id (next (m.clock, m.world)) m
  | .request (.change f) next, m => resume id (next ()) { m with world := f m.world }
  | .request .pause next, m => m.wake.enqueue id (next ())
  | .request (.sleep moment) next, m =>
    if moment ≤ m.clock then m.wake.enqueue id (next ())
    else { m.wake with asleep := insertSleeper (moment, id, next ()) m.asleep }
  | .request (.await ready) next, m =>
    if ready m.world then resume id (next ()) m
    else { m.wake with waiting := m.wake.waiting ++ [(ready, id, next ())] }

/-- The clock jumps to the next moment at which somebody wakes; none when nobody sleeps. -/
def jump? (m : Machine W α) : Option (Machine W α) :=
  match m.asleep with
  | [] => none
  | (moment, _) :: _ =>
    let (up, still) := m.asleep.span fun e => e.1 ≤ moment
    some { m with clock := moment, ready := up.map (·.2), asleep := still }

/-- The next act that can run has its turn; none when all are done or wait for ever. -/
def step? (m : Machine W α) : Option (Machine W α) :=
  match m.ready with
  | (id, p) :: rest => some (resume id p { m with ready := rest })
  | [] => m.jump?

/-- Run the acts, for so many turns at most. -/
def run : Nat → Machine W α → Machine W α
  | 0, m => m
  | turns + 1, m =>
    match m.step? with
    | some m => run turns m
    | none => m

end Machine
end Parley.Rehearsal
