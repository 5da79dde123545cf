import Parley.Proofs.Turn.Anonymous

/-!
# Collaborators who answer alike

A `Staff` is collaborators whose answers, and the time they take, depend on nothing but what they
are asked.  A turn is played with a staff from a moment on (`Staff.replies`): time passes only while
a collaborator is at work, nobody else interrupts the turn, and a call may be given up for its
deadline.

When a turn begins makes no difference then, since all of its deadlines are as far away as they
would be at any other time (`play_run_eq`).
-/

namespace Parley.Turn

/-- Collaborators whose answers depend on what they are asked. -/
structure Staff where
  /-- What comes of a call with so much time left, and how much of it the call takes. -/
  call (op : Step.Op) (left : Option Rat) : Except Interruption op.Reply × Rat
  /-- What comes of the opening of a ticket. -/
  ticket (target priority reason : String) (metadata : Fields) (bound : Option Binary64) :
    Except Parley.Fault Value
  /-- Whose session it is makes no difference. -/
  blind (target priority reason : String) {metadata metadata' : Fields} (bound : Option Binary64)
    (h : metadata.remove "session_id" = metadata'.remove "session_id") :
    ticket target priority reason metadata bound = ticket target priority reason metadata' bound

namespace Staff

/-- The replies to a turn, and the time that it is then. -/
def replies (staff : Staff) : (op : Op) → Rat → op.Reply × Rat
  | .time, now => (now, now)
  | .enter, now => (Entry.go, now)
  | .act op deadline, now =>
    let (answer, taken) := staff.call op (deadline.map (· - now))
    (answer, now + taken)
  | .leave, now => (false, now)

end Staff

/-- The frame of the same turn begun so much later. -/
def Frame.later (f : Frame) (δ : Rat) : Frame := { f with deadline := f.deadline.map (· + δ) }

variable (staff : Staff) (δ : Rat)

/-! ### A turn that begins later -/

theorem left_later (deadline : Option Rat) (now : Rat) :
    (deadline.map (· + δ)).map (· - (now + δ)) = deadline.map (· - now) := by
  cases deadline with
  | none => rfl
  | some d =>
      have hd : d + δ - (now + δ) = d - now := by grind
      exact congrArg some hd

theorem play_guarded_later {α : Type} (deadline : Option Rat) (p : Step.StepProgram α) (now : Rat) :
    (guarded (deadline.map (· + δ)) p).play staff.replies (now + δ) =
      (((guarded deadline p).play staff.replies now).1,
        ((guarded deadline p).play staff.replies now).2 + δ) := by
  induction p generalizing now with
  | done a => rfl
  | request op next ih =>
      have hthen (taken : Rat) : now + δ + taken = now + taken + δ := by grind
      rw [guarded, guarded, Program.play, Program.play]
      dsimp only [Staff.replies]
      rw [left_later, hthen]
      cases (staff.call op (deadline.map (· - now))).1 with
      | error i => rfl
      | ok r => exact ih r _

theorem play_step_later (f : Frame) (s : Session) (n : Flow.Node) (answer : Option String)
    (now : Rat) :
    (step (f.later δ) s n answer).play staff.replies (now + δ) =
      (((step f s n answer).play staff.replies now).1,
        ((step f s n answer).play staff.replies now).2 + δ) := by
  unfold step
  rw [Program.play_bind, Program.play_bind]
  have hg := play_guarded_later staff δ f.deadline (Step.run f.setting n s answer) now
  change (guarded (f.later δ).deadline (Step.run (f.later δ).setting n s answer)).play _ _ = _ at hg
  rw [hg]
  cases ((guarded f.deadline (Step.run f.setting n s answer)).play staff.replies now).1 <;> rfl

/-- **All the steps** are the same, so much later. -/
theorem play_advance_later (f : Frame) (left : Nat) (w : Walk) (n : Flow.Node)
    (answer : Option String) (now : Rat) :
    (advance (f.later δ) left w n answer).play staff.replies (now + δ) =
      (((advance f left w n answer).play staff.replies now).1,
        ((advance f left w n answer).play staff.replies now).2 + δ) := by
  induction left generalizing w n answer now with
  | zero => rfl
  | succ left ih =>
      rw [advance_succ, advance_succ, Program.play, Program.play]
      dsimp only [Staff.replies]
      rw [Program.play_bind, Program.play_bind, play_step_later]
      generalize (step f w.session n answer).play staff.replies now = r
      obtain ⟨r, now'⟩ := r
      cases r with
      | error i => cases i <;> rfl
      | ok o =>
          have hsettle : (f.later δ).settle w.stepped n o = f.settle w.stepped n o := rfl
          unfold afterStep
          dsimp only
          rw [hsettle]
          cases f.settle w.stepped n o with
          | inl ending => rfl
          | inr next => exact ih next.1 next.2 none now'

theorem play_setOut_later (f : Frame) (s : Session) (message : Option String) (now : Rat) :
    ((setOut (f.later δ) s message).play staff.replies (now + δ)).1 =
      ((setOut f s message).play staff.replies now).1 := by
  have hsetting : (f.later δ).setting = f.setting := rfl
  have hnow : (f.later δ).now = f.now := rfl
  unfold setOut
  rw [hsetting, hnow]
  cases entry f.setting.flow (begun f.now s message) (Step.givenAnswer message) with
  | error e => rfl
  | ok e =>
      have hgoes := play_advance_later staff δ f f.setting.policy.maxSteps.toNat
        { session := e.2.2 }
        e.1 e.2.1 now
      exact (Prod.ext_iff.mp hgoes).1

/-- **When a turn begins** makes no difference. -/
theorem play_run_eq (setting : Step.Setting) (now : Calendar.Moment) (s : Session)
    (message : Option String) (timeout : Option Binary64) (start start' : Rat) :
    ((run setting now s message timeout).play staff.replies start).1 =
      ((run setting now s message timeout).play staff.replies start').1 := by
  have hdeadline : deadlineOf setting.policy timeout start =
      (deadlineOf setting.policy timeout start').map (· + (start - start')) := by
    unfold deadlineOf
    rw [Option.map_map]
    refine congrArg (Option.map · _) (funext fun bound => ?_)
    change start + bound = start' + bound + (start - start')
    grind
  have hstart : start = start' + (start - start') := by grind
  rw [run_eq]
  change ((runFrom setting now s message timeout start).play staff.replies start).1 =
    ((runFrom setting now s message timeout start').play staff.replies start').1
  unfold runFrom
  split
  · have hlater := play_setOut_later staff (start - start')
      ⟨setting, now, deadlineOf setting.policy timeout start'⟩ s message start'
    rw [← hstart] at hlater
    unfold Frame.later at hlater
    rw [← hdeadline] at hlater
    exact hlater
  · rfl

end Parley.Turn
