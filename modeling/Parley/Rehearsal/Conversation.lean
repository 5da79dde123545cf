import Parley.Rehearsal.Cast
import Parley.Rehearsal.Act
import Parley.Turn.Run

/-!
# Rehearsed conversations

Steps and turns as acts that share a cast. A request is noted when it is made; then it takes its
time, and at the end of that the cast answers it. It has no answer, and no effect, when its bound,
the deadline of the turn, a cancellation or an abandonment comes first.
-/

namespace Parley.Rehearsal

/-- The cast and the requests that were made of it. -/
structure Stage where
  cast : Cast
  calls : List Consultation := []

namespace Stage

/-- A request is noted. -/
def note (q : Consultation) (s : Stage) : Stage := { s with calls := s.calls ++ [q] }

/-- The cast answers a request. -/
def answer (q : Consultation) (s : Stage) : Except Fault q.Answer × Stage :=
  ((s.cast.answer q).1, { s with cast := (s.cast.answer q).2 })

end Stage

/-- The earliest of some events and its moment, unless there is none before `finish`, which need not
come. -/
def firstBefore {ι : Type} (finish : Option Rat) : List (Rat × ι) → Option (Rat × ι)
  | [] => none
  | e :: rest =>
    if finish.all (e.1 < ·) then some ((firstBefore (some e.1) rest).getD e)
      else firstBefore finish rest

/-- An event at a moment that need not come. -/
def eventAt {ι : Type} (moment : Option Rat) (event : ι) : List (Rat × ι) :=
  (moment.map fun t => (t, event)).toList

/-- Sleep until a moment, for ever when it does not come. -/
def sleepUntil {W : Type} : Option Rat → Act W Unit
  | some moment => Act.sleep moment
  | none => Act.await fun _ => false

/-- Sleep for some seconds, for ever when they have no end, unless an event comes before. -/
def sleepUnless {W ι : Type} (events : List (Rat × ι)) (start : Rat) (seconds : Option Rat) :
    Act W (Option ι) := do
  match firstBefore (seconds.map (start + ·)) events with
  | none =>
    sleepUntil (seconds.map (start + ·))
    return none
  | some (moment, event) =>
    Act.sleep moment
    Act.pauses 3
    return some event

/-- Make a request of the cast within a bound, unless an event comes before the answer. -/
def consult {ι : Type} (events : List (Rat × ι)) (q : Consultation) (bound : Option Binary64) :
    Act Stage (Except ι (Except Fault q.Answer)) := do
  let rests := if bound.isSome then 1 else 0
  Act.pauses rests
  let (start, stage) ← Act.look
  Act.change (Stage.note q)
  let late := (bound.bind Binary64.toRat?).map (start + ·)
  let events : List (Rat × Option ι) := eventAt late none ++ events.map fun e => (e.1, some e.2)
  let event ← match stage.cast.delays.get? q.label with
    | none => pure none
    | some seconds => sleepUnless events start (some seconds)
  match event with
  | some (some i) => return .error i
  | some none => return .ok (.error .timedOut)
  | none => do
    let answer ← Act.transact (Stage.answer q)
    Act.pauses (2 * rests)
    return .ok answer

/-- A request of a step. -/
def playStep {ι : Type} (events : List (Rat × ι)) : (op : Step.Op) → Act Stage (Except ι op.Reply)
  | .consult q bound => consult events q bound
  | .sleep seconds => do
    let start ← Act.clock
    match ← sleepUnless events start seconds.toRat? with
    | some i => return .error i
    | none => return .ok ()

/-- A request of a step that nothing interrupts. -/
def playFreely (op : Step.Op) : Act Stage op.Reply :=
  (playStep (ι := Empty) [] op).bind fun
    | .ok r => .done r
    | .error e => nomatch e

/-- The moments at which a turn is cut short. -/
structure Cuts where
  cancelled : Option Rat := none
  abandoned : Option Rat := none

/-- A moment has come. -/
def isPast (moment : Option Rat) (clock : Rat) : Bool := moment.any (· ≤ clock)

/-- A request of a turn. -/
def playTurn (cuts : Cuts) : (op : Turn.Op) → Act Stage op.Reply
  | .time => Act.clock
  | .enter => do
    let clock ← Act.clock
    if isPast cuts.cancelled clock then return .cancelled
    Act.pause
    return if isPast cuts.abandoned clock then .abandoned else .go
  | .act op deadline =>
    playStep (eventAt deadline .deadline ++ eventAt cuts.cancelled .cancelled ++
      eventAt cuts.abandoned .abandoned) op
  | .leave => do
    Act.pauses 2
    return isPast cuts.abandoned (← Act.clock)

/-- One node, run on the stage. -/
def step (setting : Step.Setting) (n : Flow.Node) (session : Session) (answer : Option String) :
    Act Stage Step.Outcome :=
  (Step.run setting n session answer).interpret playFreely

/-- One turn, run on the stage. -/
def turn (setting : Step.Setting) (now : Calendar.Moment) (session : Session)
    (message : Option String) (timeout : Option Binary64) (cuts : Cuts) : Act Stage Turn.Ending :=
  (Turn.run setting now session message timeout).interpret (playTurn cuts)

end Parley.Rehearsal
