import Mathlib.Algebra.Order.Ring.Rat
import Parley.Proofs.Program
import Parley.Rehearsal.Conversation

/-!
# Acts that race a deadline

An act that is left to itself ends at some moment, or awaits for ever what does not come about
(`Act.ends?`).  Raced against a deadline it runs as it would, and is given up at the deadline if it
would sleep or wait beyond it (`Act.raced`).  Two timers of one moment go off one after the other:
the deadline's first, or the sleeper's first. So an act in time ends as it would alone, at the same
moment, and a late one is given up at the deadline (`Act.alone_raced`).

The requests of a turn are raced one by one (`race`), and with them the whole step (`step_race`).  A
rehearsal without cancellations races them so (`races_playTurn`).
-/

namespace Parley.Rehearsal

open Turn (Interruption Frame)

variable {W α β : Type}

namespace Act

/-! ### Acts left to themselves -/

/-- The value, the clock and the world in the end of an act that has the world to itself; none when
it awaits for ever what does not come about. -/
def ends? : Act W α → Rat → W → Option (α × Rat × W)
  | .done a, t, w => some (a, t, w)
  | .request .look next, t, w => ends? (next (t, w)) t w
  | .request (.change f) next, t, w => ends? (next ()) t (f w)
  | .request .pause next, t, w => ends? (next ()) t w
  | .request (.sleep moment) next, t, w => ends? (next ()) (max t moment) w
  | .request (.await ready) next, t, w => if ready w then ends? (next ()) t w else none

theorem alone_bind (p : Act W α) (g : α → Act W β) (t : Rat) (w : W) :
    Act.alone (p.bind g) t w = Act.alone (g (Act.alone p t w).1)
      (Act.alone p t w).2.1 (Act.alone p t w).2.2 := by
  induction p generalizing t w with
  | done a => rfl
  | request op next ih => cases op <;> exact ih _ _ _

/-- Surroundings that serve every request alike serve a program alike. -/
theorem alone_interpret {Op : Type} {Reply : Op → Type} {f g : (op : Op) → Act W (Reply op)}
    (h : ∀ op t w, Act.alone (f op) t w = Act.alone (g op) t w) (p : Program Op Reply α) (t : Rat)
    (w : W) :
    Act.alone (p.interpret f) t w = Act.alone (p.interpret g) t w := by
  induction p generalizing t w with
  | done a => rfl
  | request op next ih =>
    rw [Program.interpret, Program.interpret, alone_bind, alone_bind, h, ih]

/-- The clock does not run backwards. -/
theorem le_of_ends? {p : Act W α} {t m : Rat} {w w' : W} {a : α}
    (h : ends? p t w = some (a, m, w')) : t ≤ m := by
  induction p generalizing t w with
  | done b =>
    cases h
    exact le_refl _
  | request op next ih =>
    cases op with
    | look | change | pause => exact ih _ h
    | sleep moment => exact (le_max_left t moment).trans (ih _ h)
    | await ready =>
      rw [ends?] at h
      split at h
      · exact ih _ h
      · cases h

/-! ### The race -/

/-- A sleep from `t` until `moment` goes beyond the deadline.  Of two timers of one moment, that of
the deadline goes off first if `first`. -/
def isBeyond (first : Bool) (deadline t moment : Rat) : Bool :=
  if first then decide (t < moment) && decide (deadline ≤ moment) else decide (deadline < moment)

/-- Give up at the deadline. -/
def giveUp (deadline : Rat) : Act W (Except Interruption α) :=
  (Act.sleep deadline).bind fun _ => .done (.error .deadline)

/-- The act until the deadline. -/
def raced (first : Bool) (deadline : Rat) : Act W α → Act W (Except Interruption α)
  | .done a => .done (.ok a)
  | .request .look next => .request .look fun r => raced first deadline (next r)
  | .request (.change f) next => .request (.change f) fun r => raced first deadline (next r)
  | .request .pause next => .request .pause fun r => raced first deadline (next r)
  | .request (.sleep moment) next => .request .look fun r =>
    if isBeyond first deadline r.1 moment then giveUp deadline
    else .request (.sleep moment) fun r => raced first deadline (next r)
  | .request (.await ready) next => .request .look fun r =>
    if ready r.2 then raced first deadline (next ()) else giveUp deadline

/-- Acts one after the other are raced one after the other. -/
theorem raced_bind (first : Bool) (deadline : Rat) (p : Act W α) (g : α → Act W β) :
    raced first deadline (p.bind g) = (raced first deadline p).bind fun
      | .ok a => raced first deadline (g a)
      | .error i => .done (.error i) := by
  induction p with
  | done a => rfl
  | request op next ih =>
    cases op with
    | look => exact congrArg (Program.request Op.look) (funext ih)
    | change f => exact congrArg (Program.request (Op.change f)) (funext ih)
    | pause => exact congrArg (Program.request Op.pause) (funext ih)
    | sleep moment =>
      refine congrArg (Program.request Op.look) (funext fun r => ?_)
      dsimp only
      split
      · rfl
      · exact congrArg (Program.request (Op.sleep moment)) (funext ih)
    | await ready =>
      refine congrArg (Program.request Op.look) (funext fun r => ?_)
      dsimp only
      split
      · exact ih ()
      · rfl

/-- How an act begun at `t` fares in the race, by how it would end if it were left to itself. -/
inductive Fares (first : Bool) (deadline t : Rat) :
    Option (α × Rat × W) → Except Interruption α × Rat × W → Prop where
  | inTime {a : α} {m : Rat} {w : W} (h : isBeyond first deadline t m = false) :
      Fares first deadline t (some (a, m, w)) (.ok a, m, w)
  | late {a : α} {m : Rat} {w : W} (h : isBeyond first deadline t m = true) (w' : W) :
      Fares first deadline t (some (a, m, w)) (.error .deadline, deadline, w')
  | never (w' : W) : Fares first deadline t none (.error .deadline, deadline, w')

variable {first : Bool} {deadline t moment m : Rat}

theorem isBeyond_mono (h : isBeyond first deadline t moment = true) (hm : moment ≤ m) :
    isBeyond first deadline t m = true := by
  unfold isBeyond at *
  cases first with
  | true =>
    simp only [if_true, Bool.and_eq_true, decide_eq_true_eq] at *
    exact ⟨h.1.trans_le hm, h.2.trans hm⟩
  | false =>
    simp only [Bool.false_eq_true, if_false, decide_eq_true_eq] at *
    exact h.trans_le hm

theorem isBeyond_self (ht : t ≤ deadline) : isBeyond first deadline t t = false := by
  unfold isBeyond
  cases first <;> simp [ht]

/-- A sleep that does not go beyond the deadline is over by then. -/
theorem le_of_not_beyond (ht : t ≤ deadline) (h : isBeyond first deadline t moment = false) :
    max t moment ≤ deadline := by
  unfold isBeyond at h
  refine max_le ht (le_of_not_gt fun hlt => ?_)
  cases first <;> simp_all [hlt.le, ht.trans_lt hlt]

/-- After a sleep that does not go beyond the deadline, the same moments are beyond it. -/
theorem isBeyond_after (h : isBeyond first deadline t moment = false) (m : Rat) :
    isBeyond first deadline (max t moment) m = isBeyond first deadline t m := by
  unfold isBeyond at *
  cases first with
  | false => rfl
  | true =>
    simp only [if_true] at *
    rcases le_or_gt moment t with hle | hlt
    · rw [max_eq_left hle]
    · have hbefore : moment < deadline := by simpa [hlt] using h
      rw [max_eq_right hlt.le]
      rcases lt_or_ge m deadline with hdm | hdm
      · simp [not_le.mpr hdm]
      · simp [hbefore.trans_le hdm, hlt.trans (hbefore.trans_le hdm)]

theorem Fares.before {free : Option (α × Rat × W)} {r : Except Interruption α × Rat × W}
    (h : Fares first deadline (max t moment) free r)
    (hin : isBeyond first deadline t moment = false) :
    Fares first deadline t free r := by
  cases h with
  | @inTime _ m _ h => exact .inTime (isBeyond_after hin m ▸ h)
  | @late _ m _ h w' => exact .late (isBeyond_after hin m ▸ h) w'
  | never w' => exact .never w'

/-- **An act in time ends as it would alone, and a late one is given up at the deadline.** -/
theorem alone_raced (ht : t ≤ deadline) (p : Act W α) (w : W) :
    Fares first deadline t (ends? p t w) (Act.alone (raced first deadline p) t w) := by
  induction p generalizing t w with
  | done a => exact .inTime (isBeyond_self ht)
  | request op next ih =>
    cases op with
    | look | change | pause => exact ih _ ht _
    | sleep moment =>
      rw [ends?, raced]
      change Fares first deadline t _
        (Act.alone (if isBeyond first deadline t moment then _ else _) t w)
      split
      -- the deadline comes before the sleep is over
      · next hlate =>
        change Fares first deadline t _ (.error .deadline, max t deadline, w)
        rw [max_eq_right ht]
        cases hfree : ends? (next ()) (max t moment) w with
        | none => exact .never w
        | some r => exact .late (isBeyond_mono hlate
            ((le_max_right t moment).trans (le_of_ends? hfree))) w
      · next hin =>
        have hin := Bool.eq_false_iff.mpr hin
        exact (ih () (le_of_not_beyond ht hin) w).before hin
    | await ready =>
      rw [ends?, raced]
      change Fares first deadline t _ (Act.alone (if ready w then _ else _) t w)
      split
      · exact ih () ht w
      · change Fares first deadline t _ (.error .deadline, max t deadline, w)
        rw [max_eq_right ht]
        exact .never w

end Act

/-! ### Turns that race a deadline -/

/-- The surroundings of a turn in which `serve` serves the requests of its steps: they are raced
against the deadline, and the turn is neither cancelled nor abandoned. -/
def race (first : Bool) (serve : (op : Step.Op) → Act W op.Reply) : (op : Turn.Op) → Act W op.Reply
  | .time => Act.clock
  | .enter => .done .go
  | .act op (some deadline) => Act.raced first deadline (serve op)
  | .act op none => (serve op).bind fun r => .done (.ok r)
  | .leave => .done false

/-- Surroundings that race the requests of a turn. -/
def Races (first : Bool) (serve : (op : Step.Op) → Act W op.Reply)
    (around : (op : Turn.Op) → Act W op.Reply) : Prop :=
  ∀ op t w, Act.alone (around op) t w = Act.alone (race first serve op) t w

theorem guarded_race (first : Bool) (serve : (op : Step.Op) → Act W op.Reply) (deadline : Rat)
    (p : Step.StepProgram α) :
    (Turn.guarded (some deadline) p).interpret (race first serve) = Act.raced first deadline
    (p.interpret serve) := by
  induction p with
  | done a => rfl
  | request op next ih =>
    rw [Turn.guarded, Program.interpret, Program.interpret, Act.raced_bind]
    refine congrArg (Program.bind _) (funext fun r => ?_)
    cases r with
    | error i => rfl
    | ok r => exact ih r

/-- **With its requests the whole step is raced.** -/
theorem step_race (first : Bool) (serve : (op : Step.Op) → Act W op.Reply) {f : Frame}
    {deadline : Rat} (hf : f.deadline = some deadline) (session : Session) (n : Flow.Node)
    (answer : Option String) :
    (Turn.step f session n answer).interpret (race first serve) =
      Act.raced first deadline ((Step.run f.setting n session answer).interpret serve) := by
  rw [Turn.step, hf, Program.interpret_bind, guarded_race]
  refine Eq.trans (congrArg (Program.bind _) (funext fun r => ?_)) (Program.bind_done _)
  cases r <;> rfl

/-- Without a deadline a step is left to itself. -/
theorem step_unbounded (first : Bool) (serve : (op : Step.Op) → Act W op.Reply) {f : Frame}
    (hf : f.deadline = none) (session : Session) (n : Flow.Node) (answer : Option String) :
    (Turn.step f session n answer).interpret (race first serve) =
      ((Step.run f.setting n session answer).interpret serve).bind fun o => .done (.ok o) := by
  have hguarded {β : Type} (p : Step.StepProgram β) :
    (Turn.guarded none p).interpret (race first serve) =
      (p.interpret serve).bind fun b => .done (.ok b) := by
    induction p with
    | done b => rfl
    | request op next ih =>
      rw [Turn.guarded, Program.interpret, Program.interpret, race, Program.bind_assoc,
        Program.bind_assoc]
      exact congrArg (Program.bind _) (funext ih)
  rw [Turn.step, hf, Program.interpret_bind, hguarded, Program.bind_assoc]
  rfl

/-- A turn is played alike in all surroundings that race its requests. -/
theorem Races.alone_eq {first : Bool} {serve : (op : Step.Op) → Act W op.Reply}
    {around : (op : Turn.Op) → Act W op.Reply} (h : Races first serve around)
    (p : Turn.TurnProgram α) (t : Rat) (w : W) :
    Act.alone (p.interpret around) t w = Act.alone (p.interpret (race first serve)) t w :=
  Act.alone_interpret h p t w

end Parley.Rehearsal
