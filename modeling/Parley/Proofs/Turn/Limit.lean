import Parley.Proofs.Turn.Commit
import Parley.Proofs.Turn.Finish
import Parley.Proofs.Turn.Strict

/-!
# The bound on the steps of a turn

A turn is compared with the same turn under a larger bound on its steps: the same session and
message, and the same surroundings, which reply to the one what they reply to the other.

The bound is looked at only before a node is run, so no step depends on it (`Step.run_capped`), and
neither does what follows from a step (`settle_capped`).  The two turns are one until the smaller
bound is used up (`Extends`): if that does not happen they are the same, and if it does the larger
bound only adds to the stops of the turn.  The induction is on the steps that the smaller bound
leaves (`travel_extends`).
-/

namespace Parley.Step

/-- The setting with another bound on the steps of a turn. -/
def Setting.capped (s : Setting) (cap : Int) : Setting :=
  { s with policy := { s.policy with maxSteps := cap } }

/-- Media are read alike under any cap on steps. -/
theorem readMediaOr_capped (s : Setting) (cap : Int) (d : Flow.Welcome) (payload : String)
    (kind : Media.Kind) :
    readMediaOr (s.capped cap) d payload kind = readMediaOr s d payload kind := by
  unfold readMediaOr
  cases kind <;> rfl

theorem runWelcome_capped (s : Setting) (cap : Int) (id : String) (vars : Fields) (d : Flow.Welcome)
    (answer : Option String) :
    runWelcome (s.capped cap) id vars d answer = runWelcome s id vars d answer := by
  cases answer with
  | none => rfl
  | some a =>
      unfold runWelcome
      dsimp only
      rw [readMediaOr_capped]
      rfl

/-- **A step does not depend on how many there may be.** -/
theorem run_capped (s : Setting) (cap : Int) (n : Flow.Node) (session : Session)
    (answer : Option String) :
    run (s.capped cap) n session answer = run s n session answer := by
  unfold run effectOf
  cases n.block with
  | welcome d =>
      dsimp only
      rw [runWelcome_capped]
  | _ => rfl

end Parley.Step

namespace Parley.Turn

variable {σ : Type} {f : Frame} {w : Walk} {n : Flow.Node}

/-- The frame with another bound on the steps. -/
def Frame.capped (f : Frame) (cap : Int) : Frame := { f with setting := f.setting.capped cap }

/-- A node is run alike under any cap on steps. -/
theorem step_capped (f : Frame) (cap : Int) (session : Session) (n : Flow.Node)
    (answer : Option String) :
    step (f.capped cap) session n answer = step f session n answer := by
  have hrun : Step.run (f.capped cap).setting n session answer =
      Step.run f.setting n session answer :=
    Step.run_capped f.setting cap n session answer
  unfold step
  rw [hrun]
  rfl

/-- An outcome is settled alike under any cap on steps. -/
theorem settle_capped (f : Frame) (cap : Int) (w : Walk) (n : Flow.Node) (o : Step.Outcome) :
    (f.capped cap).settle w n o = f.settle w n o := by
  cases o <;> rfl

theorem abort_capped (f : Frame) (cap : Int) (w : Walk) (n : Flow.Node) (reason : String) :
    (f.capped cap).abort w n reason = f.abort w n reason := rfl

theorem interrupt_capped (f : Frame) (cap : Int) (w : Walk) (n : Flow.Node) (i : Interruption) :
    (f.capped cap).interrupt w n i = f.interrupt w n i := by
  cases i <;> rfl

/-- A turn that is interrupted has not used up its steps. -/
theorem not_stepLimit_of_interrupt (i : Interruption) : ¬ (f.interrupt w n i).In .stepLimit := by
  rintro ⟨s, r, he, hr⟩
  cases i <;> cases he <;> cases hr

/-- A node that ends the turn does so for another reason than the bound. -/
theorem Settles.not_stepLimit {o : Step.Outcome} {e : Ending} (h : Settles f w n o (.inl e)) :
    ¬ e.In .stepLimit := by
  cases h <;> exact fun h => nomatch in_finish.mp h

/-- A turn goes on only from a node that succeeded. -/
theorem Settles.done {o : Step.Outcome} {next : Walk × Flow.Node}
    (h : Settles f w n o (.inr next)) :
    ∃ e, o = .done e := by
  cases h
  exact ⟨_, rfl⟩

/-! ### Two bounds -/

/-- The nodes that a turn came to all succeeded. -/
def AllDone (stops : List Stop) : Prop := ∀ st ∈ stops, ∃ x, st.fate = .over (.done x)

/-- A turn that may take `cap` steps, and the same turn with more of them: they are the same, or the
first one used up its steps, all of which succeeded, and the second one begins with them. -/
inductive Extends (cap : Nat) : (List Stop × Ending) × σ → (List Stop × Ending) × σ → Prop where
  | within {p : (List Stop × Ending) × σ} (h : ¬ p.1.2.In .stepLimit) : Extends cap p p
  | beyond {stops : List Stop} {e : Ending} {world : σ} {q : (List Stop × Ending) × σ}
      (he : e.In .stepLimit) (hc : stops.length = cap) (hd : AllDone stops) (hp : stops <+: q.1.1) :
      Extends cap ((stops, e), world) q

/-- One more stop, where the node succeeded. -/
theorem Extends.cons {cap : Nat} {p q : (List Stop × Ending) × σ} {first : Stop} {x : Step.Effect}
    (hf : first.fate = .over (.done x)) (h : Extends cap p q) :
    Extends (cap + 1) ((first :: p.1.1, p.1.2), p.2) ((first :: q.1.1, q.1.2), q.2) := by
  cases h with
  | within h => exact .within h
  | beyond he hc hd hp =>
      exact .beyond he (congrArg Nat.succ hc) (List.forall_mem_cons.mpr ⟨⟨x, hf⟩, hd⟩)
        (List.cons_prefix_cons.mpr ⟨rfl, hp⟩)

/-- **From a node on** the turn with more steps left extends the other, by induction on the steps
left. -/
theorem travel_extends (f : Frame) (m m' : Int) (replies : (op : Op) → σ → op.Reply × σ)
    {left left' : Nat} (hle : left ≤ left') (w : Walk) (n : Flow.Node) (resumed : Bool)
    (answer : Option String) (world : σ) :
    Extends left ((travel (f.capped m) left w n resumed answer).play replies world)
      ((travel (f.capped m') left' w n resumed answer).play replies world) := by
  induction left generalizing left' w n resumed answer world with
  | zero =>
      rw [travel, Program.play]
      exact .beyond (in_finish.mpr rfl) rfl (List.forall_mem_nil _) List.nil_prefix
  | succ left ih =>
      obtain ⟨left', rfl⟩ : ∃ k, left' = k + 1 := ⟨left' - 1, by omega⟩
      rw [travel, travel, Program.play, Program.play]
      -- both walks ask the same and are told the same; only what is left differs
      cases (replies .enter world).1 with
      | abandoned => exact .within (not_stepLimit_of_interrupt (f := f) (w := w)
          (n := n) .abandoned)
      | cancelled =>
          dsimp only
          rw [abort_capped, abort_capped]
          refine .within fun h => ?_
          cases in_finish.mp h
      | go =>
          dsimp only
          rw [Program.play_bind, Program.play_bind, step_capped, step_capped]
          generalize (step f w.session n answer).play replies _ = played
          obtain ⟨r, world⟩ := played
          cases r with
          | error i =>
              dsimp only
              rw [interrupt_capped, interrupt_capped]
              exact .within (not_stepLimit_of_interrupt i)
          | ok o =>
              dsimp only
              have hs := settles_settle f w.stepped n o
              rw [settle_capped, settle_capped]
              revert hs
              cases f.settle w.stepped n o with
              | inl e => exact fun hs => .within hs.not_stepLimit
              | inr next =>
                  intro hs
                  obtain ⟨x, rfl⟩ := hs.done
                  dsimp only
                  rw [Program.play_bind, Program.play_bind]
                  exact (ih (Nat.le_of_succ_le_succ hle) next.1 next.2 false none world).cons rfl

/-- A tour under a cap is extended by the tour under a higher one. -/
theorem tourIn_extends (f : Frame) {m m' : Int} (h : m ≤ m')
    (replies : (op : Op) → σ → op.Reply × σ) (session : Session) (message : Option String)
    (world : σ) :
    Extends m.toNat ((tourIn (f.capped m) session message).play replies world)
      ((tourIn (f.capped m') session message).play replies world) := by
  have hsetting (cap : Int) : (f.capped cap).setting.flow = f.setting.flow := rfl
  have hnow (cap : Int) : (f.capped cap).now = f.now := rfl
  unfold tourIn
  rw [hsetting, hsetting, hnow, hnow]
  split
  · exact .within fun h => nomatch in_finish.mp h
  · dsimp only
    split
    · exact .within fun h => nomatch in_finish.mp h
    · exact travel_extends f m m' replies (Int.toNat_le_toNat h) _ _ _ _ world

/-- So it is from the beginning of a turn. -/
theorem tour_extends (setting : Step.Setting) (now : Calendar.Moment) (session : Session)
    (message : Option String) (timeout : Option Binary64) (replies : (op : Op) → σ → op.Reply × σ)
    (world : σ) {m m' : Int} (h : m ≤ m') :
    Extends m.toNat ((tour (setting.capped m) now session message timeout).play replies world)
      ((tour (setting.capped m') now session message timeout).play replies world) := by
  rw [tour_eq, tour_eq]
  exact tourIn_extends ⟨setting, now, deadlineOf setting.policy timeout
    (replies .time world).1⟩ h replies
    session message (replies .time world).2

/-! ### What a turn has done when its steps are used up -/

/-- A tour on which all is done has an effect for each stop. -/
theorem length_effects {stops : List Stop} (h : AllDone stops) :
    (effects stops).length = stops.length := by
  induction stops with
  | nil => rfl
  | cons st rest ih =>
      obtain ⟨⟨x, hx⟩, hrest⟩ := List.forall_mem_cons.mp h
      simpa [effects, Stop.effect?, hx] using ih hrest

theorem not_broke {stops : List Stop} (h : AllDone stops) : stops.any Stop.broke = false := by
  refine List.any_eq_false.mpr fun st hst => ?_
  obtain ⟨x, hx⟩ := h st hst
  simp [Stop.broke, hx]

/-- Only a session of the flow uses up the steps of a turn. -/
theorem flowId_of_stepLimit {setting : Step.Setting} {now : Calendar.Moment} {session : Session}
    {message : Option String} {stops : List Stop} {e : Ending}
    (h : Tours setting now session message stops e) (he : e.In .stepLimit) :
    session.flowId = setting.flow.id := by
  cases h with
  | refused => exact nomatch in_finish.mp he
  | lost _ hflow | underway _ hflow => exact hflow

/-- **A larger bound on the steps only adds to a turn.**  A turn is played with at most `m` and with
at most `m'` steps, in the same surroundings, whatever they reply and whenever they interrupt it.
When the first play does not use up its steps, both are the same: their stops, the session and the
result they end with, and what the surroundings are left as.  When it does, it took just `m` steps
(none, if `m` is negative), all of which succeeded; the second play begins with the same stops, and
unless it is abandoned it takes at least as many steps and begins with the same messages, without
the apology that the first one ends with. -/
theorem step_cap_only_cuts (setting : Step.Setting) (now : Calendar.Moment) (session : Session)
    (message : Option String) (timeout : Option Binary64) (replies : (op : Op) → σ → op.Reply × σ)
    (world : σ) {m m' : Int} (hm : m ≤ m') {stops stops' : List Stop} {e e' : Ending}
    {left left' : σ}
    (h : (tour (setting.capped m) now session message timeout).play replies world =
      ((stops, e), left))
    (h' : (tour (setting.capped m') now session message timeout).play replies world =
      ((stops', e'), left')) :
    (¬ e.In .stepLimit → stops' = stops ∧ e' = e ∧ left' = left) ∧
      (e.In .stepLimit → stops.length = m.toNat ∧ AllDone stops ∧ stops <+: stops' ∧
        ∃ s r said, e = .finished s r ∧ r.stepsExecuted = m.toNat ∧
          r.messages = said ++ [setting.policy.errorMessage] ∧
          ∀ s' r', e' = .finished s' r' → r.stepsExecuted ≤ r'.stepsExecuted ∧
            said <+: r'.messages) := by
  have hx := tour_extends setting now session message timeout replies world hm
  have hends := Program.ends_play replies
    (tour (setting.capped m) now session message timeout) world
  have hends' := Program.ends_play replies
    (tour (setting.capped m') now session message timeout) world
  rw [h] at hends
  rw [h'] at hends'
  rw [h, h'] at hx
  have ht := tours_of_ends hends
  cases hx with
  | within hlim => exact ⟨fun _ => ⟨rfl, rfl, rfl⟩, fun he => absurd he hlim⟩
  | beyond he hlen hdone hprefix =>
      refine ⟨fun hlim => absurd he hlim, fun _ => ⟨hlen, hdone, hprefix, ?_⟩⟩
      have hflow : session.flowId = (setting.capped m).flow.id := flowId_of_stepLimit ht he
      obtain ⟨s, r, rfl, hr⟩ := he
      obtain ⟨-, hmsgs, hsteps, -, -⟩ := commits_of_tours hflow ht
      rw [hr] at hmsgs
      have hcount : r.stepsExecuted = m.toNat := by
        rw [hsteps, not_broke hdone, length_effects hdone, hlen]
        simp
      refine ⟨s, r, _, rfl, hcount, hmsgs, ?_⟩
      rintro s' r' rfl
      have hflow' : session.flowId = (setting.capped m').flow.id := hflow
      obtain ⟨-, hmsgs', hsteps', -, -⟩ := commits_of_tours hflow' (tours_of_ends hends')
      -- what the longer turn does besides comes after
      obtain ⟨rest, rfl⟩ := hprefix
      have heffects : effects (stops ++ rest) = effects stops ++ effects rest :=
        List.filterMap_append
      constructor
      · rw [hcount, hsteps', heffects, List.length_append, length_effects hdone, hlen]
        omega
      · rw [hmsgs', heffects, List.flatMap_append, List.append_assoc, List.append_assoc]
        exact (List.prefix_append_right_inj _).mpr (List.prefix_append _ _)

/-- The greeting with at most so many steps. -/
def greetingCapped (cap : Int) : (List Stop × Ending) × Unit :=
  (tour (greetingSetting.capped cap) newYear newcomer (some "hi") none).play
    (undisturbed silent 0) ()

/-- With two steps the greeting is cut before its pause; with three it is cut before its question.
-/
theorem step_cap_only_cuts_greeting :
    (2 : Int) ≤ 3 ∧ (greetingCapped 2).1.2.In .stepLimit ∧
      (greetingCapped 2).1.1.map (·.node.id) = ["start", "hello"] ∧
      (greetingCapped 3).1.1.map (·.node.id) = ["start", "hello", "pause"] ∧
      (greetingCapped 2).1.1.length = 2 ∧ AllDone (greetingCapped 2).1.1 ∧
      (greetingCapped 2).1.1 <+: (greetingCapped 3).1.1 := by
  have hstate : (greetingCapped 2).1.2.result?.map (·.state) = some .stepLimit := by decide +kernel
  obtain ⟨r, hresult, hr⟩ := Option.map_eq_some_iff.mp hstate
  obtain ⟨s, hs⟩ := finished_of_result? hresult
  have hlim : (greetingCapped 2).1.2.In .stepLimit := ⟨s, r, hs, hr⟩
  obtain ⟨-, hcut⟩ := step_cap_only_cuts greetingSetting newYear newcomer (some "hi") none
    (undisturbed silent 0) () (show (2 : Int) ≤ 3 by decide) (Eq.refl (greetingCapped 2))
    (Eq.refl (greetingCapped 3))
  obtain ⟨hlength, hdone, hprefix, -⟩ := hcut hlim
  exact ⟨by decide, hlim, by decide +kernel, by decide +kernel, hlength, hdone, hprefix⟩

end Parley.Turn
