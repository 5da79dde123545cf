import Parley.Proofs.Rehearsal.Race

/-!
# Rehearsals race the deadline

A rehearsed request sleeps until the cast answers, the request is late, or an event cuts it short,
whichever comes first (`alone_sleepUnless`).  With the deadline as the one event it is the request
that nothing cuts short, raced against the deadline (`playStep_deadline`), and a sleeper of the
deadline's moment is served first.  So a rehearsal without cancellations races the requests of its
turns (`races_playTurn`).
-/

namespace Parley.Rehearsal

open Turn (Interruption)

variable {W α β ι : Type}

/-! ### The earliest event -/

/-- One more event is the first when it comes before the others and before the end. -/
theorem firstBefore_snoc (finish : Option Rat) (events : List (Rat × ι)) (moment : Rat) (i : ι) :
    firstBefore finish (events ++ [(moment, i)]) =
      match firstBefore finish events with
      | some e => if moment < e.1 then some (moment, i) else some e
      | none => if finish.all (moment < ·) then some (moment, i) else none := by
  induction events generalizing finish with
  | nil => rfl
  | cons e rest ih =>
    rw [List.cons_append, firstBefore, firstBefore]
    split
    · rw [ih]
      cases firstBefore (some e.1) rest with
      | none =>
        simp only [Option.all_some, decide_eq_true_eq, Option.getD_none]
        split <;> rfl
      | some e' =>
        simp only [Option.getD_some]
        split <;> rfl
    · exact ih finish

theorem firstBefore_eventAt (finish moment : Option Rat) (i : ι) :
    firstBefore finish (eventAt moment i) = (moment.filter fun m => finish.all (m < ·)).map
      (·, i) := by
  cases moment with
  | none => rfl
  | some m =>
    simp only [eventAt, Option.map_some, Option.toList_some, firstBefore, Option.getD_none,
      Option.filter_some]
    split <;> rfl

/-! ### Acts left to themselves and in a race -/

/-- Pauses take no time. -/
theorem alone_pauses (n : Nat) (t : Rat) (w : W) :
    Act.alone (Act.pauses n : Act W Unit) t w = ((), t, w) := by
  induction n with
  | zero => rfl
  | succ n ih => exact ih

/-- Pauses are not cut off by a deadline. -/
theorem raced_pauses (first : Bool) (deadline : Rat) (n : Nat) :
    Act.raced first deadline (Act.pauses n : Act W Unit) = (Act.pauses n).bind fun _ =>
      .done (.ok ()) := by
  induction n with
  | zero => rfl
  | succ n ih => exact congrArg (Program.request Op.pause) (funext fun _ => ih)

/-- What is made of a result takes no time. -/
theorem alone_map (p : Act W α) (g : α → β) (t : Rat) (w : W) :
    Act.alone (p.bind fun a => .done (g a)) t w = (g (Act.alone p t w).1, (Act.alone p t w).2) := by
  rw [Act.alone_bind]
  rfl

/-- What is made of a result is made of it under a deadline, too. -/
theorem alone_raced_map (first : Bool) (deadline : Rat) (p : Act W α) (g : α → β) (t : Rat)
    (w : W) :
    Act.alone (Act.raced first deadline (p.bind fun a => .done (g a))) t w =
      ((Act.alone (Act.raced first deadline p) t w).1.map g,
        (Act.alone (Act.raced first deadline p) t w).2) := by
  rw [Act.raced_bind, Act.alone_bind]
  cases (Act.alone (Act.raced first deadline p) t w).1 <;> rfl

/-! ### Sleepers -/

/-- The moment until which one sleeps who is woken by an event or at the end. -/
def waking (finish : Option Rat) (event : Option (Rat × ι)) :
    Option Rat := (event.map (·.1)).or finish

/-- A sleeper sleeps until the first event. -/
theorem alone_sleepUnless (events : List (Rat × ι)) (start : Rat) (seconds : Option Rat) (t : Rat)
    (w : W) :
    Act.alone (sleepUnless events start seconds) t w =
      let event := firstBefore (seconds.map (start + ·)) events
      (event.map (·.2), (waking (seconds.map (start + ·)) event).elim t (max t), w) := by
  unfold sleepUnless
  cases firstBefore (seconds.map (start + ·)) events with
  | some e => rfl
  | none => cases seconds <;> rfl

/-- A race with one sleep until `moment`. -/
theorem alone_raced_sleep (deadline moment t : Rat) (next : Act W α) (w : W) :
    Act.alone (Act.raced false deadline ((Act.sleep moment).bind fun _ => next)) t w =
      if deadline < moment then (.error .deadline, max t deadline, w)
      else Act.alone (Act.raced false deadline next) (max t moment) w := by
  change Act.alone (if Act.isBeyond false deadline t moment then _ else _) t w = _
  simp only [Act.isBeyond, Bool.false_eq_true, if_false, decide_eq_true_eq]
  split <;> rfl

/-- Under a deadline a sleeper sleeps until the first event or the deadline. -/
theorem alone_raced_sleepUnless (deadline : Rat) (events : List (Rat × ι)) (start : Rat)
    (seconds : Option Rat) (t : Rat) (w : W) :
    Act.alone (Act.raced false deadline (sleepUnless events start seconds)) t w =
      let event := firstBefore (seconds.map (start + ·)) events
      let end? := waking (seconds.map (start + ·)) event
      if end?.all (deadline < ·) then (.error .deadline, max t deadline, w)
      else (.ok (event.map (·.2)), end?.elim t (max t), w) := by
  unfold sleepUnless
  cases firstBefore (seconds.map (start + ·)) events with
  | some e =>
    refine (alone_raced_sleep deadline e.1 t _ w).trans ?_
    simp only [waking, Option.map_some, Option.some_or, Option.all_some, decide_eq_true_eq]
    split <;> rfl
  | none =>
    cases seconds with
    | none => rfl
    | some x =>
      refine (alone_raced_sleep deadline (start + x) t _ w).trans ?_
      simp only [waking, Option.map_some, Option.map_none, Option.none_or, Option.all_some,
        decide_eq_true_eq]
      split <;> rfl

/-! ### Requests of the cast -/

/-- The reply to a request after it slept, in so many rests, unless an event came before. -/
def conclude (q : Consultation) (rests : Nat) :
    Option (Option ι) → Act Stage (Except ι (Except Fault q.Answer))
  | some (some i) => .done (.error i)
  | some none => .done (.ok (.error .timedOut))
  | none => (Act.transact (Stage.answer q)).bind fun answer =>
      (Act.pauses (2 * rests)).bind fun _ => .done (.ok answer)

/-- A request takes its time, if it takes any, unless an event comes before. -/
def delayed (events : List (Rat × ι)) (start : Rat) : Option Rat → Act Stage (Option ι)
  | none => .done none
  | some seconds => sleepUnless events start (some seconds)

/-- The moment at which a bounded request is late. -/
def lateness (bound : Option Binary64) (start : Rat) :
    Option Rat := (bound.bind Binary64.toRat?).map (start + ·)

/-- A request, once it is noted. -/
def awaited (events : List (Rat × ι)) (q : Consultation) (bound : Option Binary64) (start : Rat)
    (takes : Option Rat) : Act Stage (Except ι (Except Fault q.Answer)) :=
  (delayed (eventAt (lateness bound start) none ++ events.map fun e =>
    (e.1, some e.2)) start takes).bind
    (conclude q (if bound.isSome then 1 else 0))

/-- A consultation is noted first, and then its answer is awaited. -/
theorem consult_eq (events : List (Rat × ι)) (q : Consultation) (bound : Option Binary64) :
    consult events q bound = (Act.pauses (if bound.isSome then 1 else 0)).bind fun _ =>
      Act.look.bind fun x =>
      (Act.change (Stage.note q)).bind fun _ => awaited events q bound x.1
        (x.2.cast.delays.get? q.label) := by
  unfold consult
  refine congrArg (Program.bind _) (funext fun _ => ?_)
  refine congrArg (Program.bind Act.look) (funext fun x => ?_)
  refine congrArg (Program.bind (Act.change (Stage.note q))) (funext fun _ => ?_)
  dsimp only
  cases x.2.cast.delays.get? q.label with
  | none => rfl
  | some seconds =>
    refine congrArg (Program.bind _) (funext fun event => ?_)
    rcases event with _ | _ | i <;> rfl

variable {q : Consultation} {bound : Option Binary64} {t deadline : Rat} {s : Stage}

theorem alone_consult (events : List (Rat × ι)) :
    Act.alone (consult events q bound) t s =
      Act.alone (awaited events q bound t (s.cast.delays.get? q.label)) t (s.note q) := by
  rw [consult_eq, Act.alone_bind, alone_pauses]
  rfl

/-- So it is under a deadline. -/
theorem alone_raced_consult (events : List (Rat × ι)) :
    Act.alone (Act.raced false deadline (consult events q bound)) t s =
      Act.alone (Act.raced false deadline (awaited events q bound t (s.cast.delays.get? q.label))) t
        (s.note q) := by
  rw [consult_eq, Act.raced_bind, raced_pauses, Act.alone_bind, Act.alone_bind, alone_pauses]
  rfl

/-- The reply to a request that nothing cuts short. -/
def uncut : Except Empty α → α
  | .ok r => r

theorem playFreely_eq (op : Step.Op) :
    playFreely op = (playStep (ι := Empty) [] op).bind fun r => .done (uncut r) := by
  refine congrArg (Program.bind _) (funext fun r => ?_)
  cases r with
  | error e => cases e
  | ok r => rfl

/-- A request of the cast that only the deadline cuts short is raced against the deadline. -/
theorem consult_deadline :
    Act.alone (consult [(deadline, Interruption.deadline)] q bound) t s =
      Act.alone (Act.raced false deadline ((consult (ι := Empty) [] q bound).bind fun r =>
        .done (uncut r))) t s := by
  rw [alone_raced_map, alone_raced_consult, alone_consult]
  cases s.cast.delays.get? q.label with
  | none => cases bound <;> rfl
  | some seconds =>
    unfold awaited delayed
    rw [Act.raced_bind, Act.alone_bind, Act.alone_bind, alone_sleepUnless, alone_raced_sleepUnless]
    simp only [List.map_nil, List.append_nil, List.map_cons, firstBefore_snoc, firstBefore_eventAt]
    -- the request is late before the cast would answer, or not; the deadline is before that moment,
    -- or not
    cases (lateness bound t).filter fun m => (Option.map (t + ·) (some seconds)).all (m < ·) with
    | none =>
      simp only [Option.map_none, Option.map_some, waking, Option.none_or, Option.all_some,
        decide_eq_true_eq]
      by_cases h : deadline < t + seconds
      · simp only [if_pos h]
        rfl
      · simp only [if_neg h]
        cases bound <;> rfl
    | some m =>
      simp only [Option.map_some, waking, Option.some_or, Option.all_some, decide_eq_true_eq]
      by_cases h : deadline < m
      · simp only [if_pos h]
        rfl
      · simp only [if_neg h]
        rfl

/-- A request of the cast that nothing cuts short. -/
theorem consult_free :
    Act.alone (consult (ι := Interruption) [] q bound) t s =
      Act.alone ((consult (ι := Empty) [] q bound).bind fun r => .done (.ok (uncut r))) t s := by
  rw [alone_map _ fun r => (.ok (uncut r) : Except Interruption _), alone_consult, alone_consult]
  cases s.cast.delays.get? q.label with
  | none => cases bound <;> rfl
  | some seconds =>
    unfold awaited delayed
    rw [Act.alone_bind, Act.alone_bind, alone_sleepUnless, alone_sleepUnless]
    simp only [List.map_nil, List.append_nil, firstBefore_eventAt]
    cases (lateness bound t).filter fun m => (Option.map (t + ·) (some seconds)).all (m < ·) with
    | none => cases bound <;> rfl
    | some m => rfl

/-! ### Sleeps of steps -/

/-- A sleep from `start` on. -/
def rested (events : List (Rat × ι)) (seconds : Binary64) (start : Rat) :
    Act Stage (Except ι Unit) :=
  (sleepUnless events start seconds.toRat?).bind fun event => .done (event.elim (.ok ()) .error)

theorem playStep_sleep (events : List (Rat × ι)) (seconds : Binary64) :
    playStep events (.sleep seconds) = Act.clock.bind (rested events seconds) := by
  refine congrArg (Program.bind _)
    (funext fun start => congrArg (Program.bind _) (funext fun event => ?_))
  cases event <;> rfl

variable {seconds : Binary64}

/-- A sleep that only the deadline cuts short is raced against the deadline. -/
theorem sleep_deadline :
    Act.alone (playStep [(deadline, Interruption.deadline)] (.sleep seconds)) t s =
      Act.alone (Act.raced false deadline
        ((playStep (ι := Empty) [] (.sleep seconds)).bind fun r => .done (uncut r))) t s := by
  rw [alone_raced_map, playStep_sleep, playStep_sleep]
  change Act.alone (rested _ seconds t) t s =
    (Except.map uncut (Act.alone (Act.raced _ _ (rested _ seconds t)) t s).1,
    (Act.alone (Act.raced _ _ (rested _ seconds t)) t s).2)
  rw [rested, rested, alone_map, alone_raced_map, alone_sleepUnless, alone_raced_sleepUnless]
  cases seconds.toRat? with
  | none => rfl
  | some x =>
    simp only [Option.map_some, firstBefore, Option.all_some, decide_eq_true_eq,
      Option.getD_none, waking, Option.map_none, Option.none_or]
    by_cases h : deadline < t + x
    · simp only [if_pos h]
      rfl
    · simp only [if_neg h]
      rfl

/-- A sleep that nothing cuts short. -/
theorem sleep_free :
    Act.alone (playStep (ι := Interruption) [] (.sleep seconds)) t s =
      Act.alone ((playStep (ι := Empty) [] (.sleep seconds)).bind fun r =>
          .done (.ok (uncut r))) t s := by
  rw [alone_map _ fun r => (.ok (uncut r) : Except Interruption _), playStep_sleep, playStep_sleep]
  change Act.alone (rested _ seconds t) t s = (_, (Act.alone (rested _ seconds t) t s).2)
  rw [rested, rested, alone_map, alone_map, alone_sleepUnless, alone_sleepUnless]
  rfl

/-! ### Turns -/

/-- **A request of a step that only the deadline cuts short is raced against the deadline.** -/
theorem playStep_deadline (deadline : Option Rat) (op : Step.Op) (t : Rat) (s : Stage) :
    Act.alone (playStep (eventAt deadline Interruption.deadline) op) t s =
      Act.alone (race false playFreely (.act op deadline)) t s := by
  cases deadline with
  | some deadline =>
    rw [race, playFreely_eq]
    cases op with
    | consult q bound => exact consult_deadline
    | sleep seconds => exact sleep_deadline
  | none =>
    rw [race, playFreely_eq, Program.bind_assoc]
    cases op with
    | consult q bound => exact consult_free
    | sleep seconds => exact sleep_free

/-- **A rehearsal without cancellations races the requests of its turns.** -/
theorem races_playTurn : Races false playFreely (playTurn {}) := by
  intro op t s
  cases op with
  | time | enter | leave => rfl
  | act op deadline =>
    have hevents : eventAt deadline Interruption.deadline ++ eventAt none .cancelled ++
      eventAt none .abandoned =
        eventAt deadline Interruption.deadline := by simp [eventAt]
    rw [playTurn, hevents]
    exact playStep_deadline deadline op t s

end Parley.Rehearsal
