import Parley.Proofs.Step.Again
import Parley.Proofs.Store.Snapshots
import Parley.Proofs.Turn.Tour

/-!
# Blank turns

A turn that ends waiting leaves its session at a node that has a place in its variables (`Stands`,
`stands_of_ends`). A blank turn of such a session runs that node alone, which says what it says
without an answer, and leaves the session where it stands with the variables it has (`play_blank`).
So the next blank turn does the same, and any number of them (`talk_blank`).
-/

namespace Parley.Turn

variable {σ : Type}

/-- No message, or one of nothing but blanks. -/
def Call.IsBlank (c : Call) : Prop := ∀ text ∈ c.message, ∀ ch ∈ text.toList, Text.isBlank ch = true

theorem Call.IsBlank.givenAnswer {c : Call} (h : c.IsBlank) :
    Step.givenAnswer c.message = none := by
  unfold Step.givenAnswer
  cases hm : c.message with
  | none => rfl
  | some text =>
      have hstrip : Text.strip text = "" := by
        have hdrop : text.toList.dropWhile Text.isBlank = [] := by
          rw [← List.append_nil text.toList, List.dropWhile_append_of_pos (h text hm),
            List.dropWhile_nil]
        rw [Text.strip, Text.stripBy, hdrop]
        rfl
      rw [Option.map_some, hstrip]
      rfl

/-- Turns are not interrupted: nodes are run when they are come to, and no turn is abandoned after a
node. -/
structure Uninterrupted (f : (op : Op) → σ → op.Reply × σ) : Prop where
  enter (world : σ) : (f .enter world).1 = Entry.go
  leave (world : σ) : (f .leave world).1 = false

theorem uninterrupted_undisturbed (c : Collaborators σ) (start : Rat) :
    Uninterrupted (undisturbed c start) :=
  ⟨fun _ => rfl, fun _ => rfl⟩

/-- The session waits at a node of the flow that says this when it is run without an answer. -/
structure Stands (flow : Flow) (n : Flow.Node) (o : Step.Output) (s : Session) : Prop where
  flowId : s.flowId = flow.id
  status : s.status = .waitingInput
  node : flow.node? s.currentNodeId = some n
  named : s.currentNodeId ≠ ""
  asks : Step.Asks n s.vars o

/-- The turn took one step, which left the session waiting where it stood with the variables it had,
and this is what was said. -/
inductive Repeats (s : Session) (said : List String) : Ending → Prop where
  | mk {s' : Session} {r : Result} (state : r.state = .waitingInput) (steps : r.stepsExecuted = 1)
      (place : r.currentNodeId = s.currentNodeId) (vars : r.vars = s.vars)
        (messages : r.messages = said)
      (status : s'.status = .waitingInput) (place' : s'.currentNodeId = s.currentNodeId)
        (vars' : s'.vars = s.vars) :
      Repeats s said (.finished s' r)

theorem Repeats.trans {s : Session} {said : List String} {e e' : Ending}
    (h : Repeats e.session said e') (hs : Repeats s said e) : Repeats s said e' := by
  obtain @⟨s₁, r₁, -, -, -, -, -, -, hplace, hvars⟩ := hs
  obtain ⟨state, steps, place, vars, messages, status, place', vars'⟩ := h
  exact ⟨state, steps, place.trans hplace, vars.trans hvars, messages, status, place'.trans hplace,
    vars'.trans hvars⟩

variable {setting : Step.Setting} {now : Calendar.Moment} {s : Session} {message : Option String}
  {timeout : Option Binary64} {n : Flow.Node} {o : Step.Output} {f : (op : Op) → σ → op.Reply × σ}

/-- A blank turn runs the node where the session stands, without an answer. -/
theorem play_run_stands {c : Call} (hs : Stands c.setting.flow n o s) (hc : c.IsBlank) (world : σ) :
    ∃ deadline, (run c.setting c.now s c.message c.timeout).play f world =
      (advance ⟨c.setting, c.now, deadline⟩ c.setting.policy.maxSteps.toNat
        { session := counted c.now s } n none).play
        f (f .time world).2 := by
  have hentry : entry c.setting.flow (counted c.now s) none = .ok (n, none, counted c.now s) := by
    simp [entry, counted, Session.isWaiting, hs.status, hs.named, hs.node]
  refine ⟨deadlineOf c.setting.policy c.timeout (f .time world).1, ?_⟩
  unfold run
  rw [Program.play, hc.givenAnswer]
  simp only [noteMessage]
  rw [if_neg (fun h => h hs.flowId)]
  unfold counted at hentry
  rw [hentry]
  rfl

/-- A node that asks when it is run without an answer ends an uninterrupted turn, and nothing is
written. -/
theorem play_advance_asks {fr : Frame} {w : Walk} (hf : Uninterrupted f)
    (h : Step.Asks n w.session.vars o) (left : Nat) (world : σ) :
    ((advance fr (left + 1) w n none).play f world).1 =
      fr.finish ((fr.commit w.stepped n { output := o, course := .wait }).become .waitingInput)
        .waitingInput "" none := by
  rw [advance, Program.play, hf.enter]
  dsimp only
  rw [step, h fr.setting w.session rfl, guarded, Program.bind, Program.bind, Program.play, hf.leave]
  rfl

/-- **A blank turn** says what the node says, and leaves the session where it stands. -/
theorem play_blank {c : Call} (hs : Stands c.setting.flow n o s) (hc : c.IsBlank)
    (hmax : 1 ≤ c.setting.policy.maxSteps) (hf : Uninterrupted f) (world : σ) :
    Repeats s o.messages ((run c.setting c.now s c.message c.timeout).play f world).1 ∧
      Stands c.setting.flow n o
        ((run c.setting c.now s c.message c.timeout).play f world).1.session := by
  obtain ⟨left, hleft⟩ : ∃ left, c.setting.policy.maxSteps.toNat = left + 1 :=
    ⟨c.setting.policy.maxSteps.toNat - 1, by omega⟩
  obtain ⟨-, hid⟩ := Flow.node?_eq_some hs.node
  obtain ⟨deadline, hplay⟩ := play_run_stands (f := f) hs hc world
  rw [hplay, hleft, play_advance_asks hf hs.asks]
  exact ⟨.mk rfl rfl hid rfl rfl rfl hid rfl,
    ⟨hs.flowId, rfl, (congrArg _ hid).trans hs.node, fun h => hs.named (hid.symm.trans h), hs.asks⟩⟩

/-- **Any number of blank turns**, each of which says the same. -/
theorem talk_blank {flow : Flow} {calls : List Call} (hs : Stands flow n o s)
    (hcalls : ∀ c ∈ calls, c.IsBlank ∧ c.setting.flow = flow ∧ 1 ≤ c.setting.policy.maxSteps)
    (hf : Uninterrupted f) (world : σ) : ((talk s calls).play f world).1.length = calls.length ∧
      ∀ e ∈ ((talk s calls).play f world).1, Repeats s o.messages e := by
  induction calls generalizing s world with
  | nil => exact ⟨rfl, List.forall_mem_nil _⟩
  | cons c rest ih =>
      obtain ⟨⟨hc, rfl, hmax⟩, hrest⟩ := List.forall_mem_cons.mp hcalls
      obtain ⟨hfirst, hstands⟩ := play_blank hs hc hmax hf world
      rw [talk, Program.play_bind, Program.play_bind]
      generalize (run c.setting c.now s c.message c.timeout).play f world =
        played at hfirst hstands ⊢
      obtain ⟨hlength, hall⟩ := ih hstands hrest played.2
      refine ⟨congrArg Nat.succ hlength, fun e he => ?_⟩
      rcases List.mem_cons.mp he with rfl | he
      · exact hfirst
      · exact (hall e he).trans hfirst

/-! ### A turn that ends waiting -/

theorem stands_of_goes {fr : Frame} {left : Nat} {w : Walk} {resumed : Bool}
    {answer : Option String} {stops : List Stop} {r : Result}
    (h : Goes fr left w n resumed answer stops (.finished s r)) (hr : r.state = .waitingInput)
    (hn : fr.setting.flow.node? n.id = some n ∧ n.id ≠ "" ∨ n.isStart = true) :
    ∃ m, fr.setting.flow.node? m.id = some m ∧ m.id ≠ "" ∧ s.currentNodeId = m.id ∧
      s.status = .waitingInput ∧ Step.Place m s.vars := by
  generalize he : Ending.finished s r = e at h
  induction h with
  | exhausted | spared => cases he; cases hr
  | deserted => cases he
  | @cut _ _ _ _ _ i =>
      cases i with
      | abandoned => cases he
      | deadline | cancelled => cases he; cases hr
  | ended w n resumed answer hrun hs =>
      cases hs with
      | failed | handsOff | completes | strays => cases he; cases hr
      | waits hc =>
          cases he
          have hplace := Step.place_of_waits hrun hc
          rcases hn with ⟨hnode, hid⟩ | hstart
          · exact ⟨n, hnode, hid, rfl, rfl, hplace⟩
          -- a start node does not wait
          · exact absurd (hstart.symm.trans hplace.isStart_eq_false) (by decide)
  | onward _ _ _ _ _ hs _ ih =>
      cases hs with
      | proceeds _ hnext hm =>
          obtain ⟨-, hid⟩ := Flow.node?_eq_some hm
          exact ih (.inl ⟨hid ▸ hm, hid ▸ hnext⟩) he

/-- A turn that ends waiting leaves a session that stands at a node of its flow. -/
theorem stands_of_ends {s₀ : Session} {r : Result}
    (h : (run setting now s₀ message timeout).Ends (.finished s r)) (hr : r.state = .waitingInput)
    (hd : Template.Displayable s.vars) : ∃ n o, Stands setting.flow n o s := by
  have hflow : s.flowId = s₀.flowId := (stamped_of_ends h).flowId
  obtain ⟨stops, h⟩ := ends_run_iff.mp h
  generalize he : Ending.finished s r = e at h
  cases tours_of_ends h with
  | refused | lost => cases he; cases hr
  | underway fr hid hf hentry t =>
      subst hf he
      obtain ⟨n, hnode, hname, hplace, hstatus, hn⟩ := stands_of_goes t hr (by
        cases enters_of_entry hentry with
        | again ht hn =>
            obtain ⟨-, hid⟩ := Flow.node?_eq_some hn
            refine .inl ⟨hid ▸ hn, fun h => ?_⟩
            simp [takesUp, ← hid, h] at ht
        | anew _ hn => exact .inr (Flow.startNode?_eq_some hn).2)
      obtain ⟨o, ho⟩ := Step.asks_of_place hn hd
      exact ⟨n, o, hflow.trans hid, hstatus, hplace ▸ hnode, hplace ▸ hname, ho⟩

/-- **Blank turns ask again.**  Of a session whose last turn ended waiting, whatever turn that was,
and whose variables can all be shown: any number of blank turns that nobody interrupts take one step
each, leave it waiting where it stands with the variables that it has, and say the same.  And that
is what the node says, without an answer, to any session with these variables. -/
theorem blank_turns_ask_again {s₀ : Session} {r : Result}
    (h : (run setting now s₀ message timeout).Ends (.finished s r)) (hr : r.state = .waitingInput)
    (hd : Template.Displayable s.vars) : ∃ n said, setting.flow.node? s.currentNodeId = some n ∧
      (∀ calls : List Call, (∀ c ∈ calls, c.IsBlank ∧ c.setting.flow = setting.flow ∧
        1 ≤ c.setting.policy.maxSteps) →
        ∀ {σ : Type} (f : (op : Op) → σ → op.Reply × σ), Uninterrupted f → ∀ world,
          ((talk s calls).play f world).1.length = calls.length ∧
            ∀ e ∈ ((talk s calls).play f world).1, Repeats s said e) ∧
      ∀ (any : Step.Setting) (fresh : Session), fresh.vars = s.vars →
        ∃ e, Step.run any n fresh none = .done (.done e) ∧ e.output.messages = said := by
  obtain ⟨n, o, hs⟩ := stands_of_ends h hr hd
  exact ⟨n, o.messages, hs.node, fun calls hcalls σ f hf world => talk_blank hs hcalls hf world,
    fun any fresh hv => ⟨_, hs.asks any fresh hv, rfl⟩⟩

/-- The greeting up to its question. -/
def greetingAsked : Ending :=
  ((run greetingSetting newYear newcomer (some "hi") none).play (undisturbed silent 0) ()).1

/-- Two blank messages to the greeting. -/
def blankCalls : List Call :=
  [{ setting := greetingSetting, now := newYear, message := some " \n" },
    { setting := greetingSetting, now := newYear, message := none }]

/-- The greeting asks for the name again, and again. -/
theorem blank_turns_ask_again_greeting :
    ∃ s r said, (run greetingSetting newYear newcomer (some "hi") none).Ends (.finished s r) ∧
      r.state = .waitingInput ∧ Template.Displayable s.vars ∧
      (∀ e ∈ ((talk s blankCalls).play (undisturbed silent 0) ()).1, Repeats s said e) ∧
      ((talk s blankCalls).play (undisturbed silent 0) ()).1.map
        (fun e => e.result?.map (·.messages)) =
        [some ["Who is there?"], some ["Who is there?"]] := by
  have hstate : greetingAsked.result?.map (·.state) = some .waitingInput := by decide +kernel
  obtain ⟨r, hresult, hr⟩ := Option.map_eq_some_iff.mp hstate
  obtain ⟨s, hs⟩ := finished_of_result? hresult
  have hsession : greetingAsked.session = s := by rw [hs]; rfl
  have hends : (run greetingSetting newYear newcomer (some "hi") none).Ends (.finished s r) :=
    hs ▸ Program.ends_play (undisturbed silent 0)
      (run greetingSetting newYear newcomer (some "hi") none) ()
  have hshort : ∀ e ∈ greetingAsked.session.vars, e.2.hasLongInt = false := by decide +kernel
  have hd : Template.Displayable s.vars := fun name v hv =>
    (Value.display_isOk_iff v).mpr (hshort (name, v) (hsession ▸ Entries.mem_of_get? hv))
  have hblank : ∀ c ∈ blankCalls,
      c.IsBlank ∧ c.setting.flow = greetingSetting.flow ∧ 1 ≤ c.setting.policy.maxSteps := by
    refine List.forall_mem_cons.mpr ⟨⟨fun text htext => ?_, rfl, by decide⟩,
      List.forall_mem_singleton.mpr ⟨fun text htext => ?_, rfl, by decide⟩⟩
    · obtain rfl := Option.some.inj htext
      exact List.all_eq_true.mp (by decide +kernel)
    · cases htext
  obtain ⟨n, said, -, hturns, -⟩ := blank_turns_ask_again hends hr hd
  refine ⟨s, r, said, hends, hr, hd,
    (hturns blankCalls hblank _ (uninterrupted_undisturbed silent 0) ()).2, ?_⟩
  rw [← hsession]
  decide +kernel

end Parley.Turn
