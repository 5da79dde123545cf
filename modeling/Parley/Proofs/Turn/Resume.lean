import Parley.Proofs.Turn.Conversation

/-!
# A turn interrupted and resumed

Of a node that is interrupted nothing is written, and the next turn runs it again.  So a turn that
is cut short and the turn after it make together what the turn would have made on its own.

Three plays are compared: the turn that is cut short, the same turn undisturbed, and the turn
after the first one, undisturbed too.

* The turn that is cut short halts at a point of the undisturbed one: `Halts`, and by induction over
  the steps `halts_of_play`.
* From that point on the next turn says and writes what the undisturbed one does.  Its walk has the
  variables of the other and says what the other says after some messages (`Echoes`), a step keeps
  that so (`settle_tallies`), and so does a whole turn (`advance_tallies`).

The collaborators answer the next turn as they would have answered the node that was interrupted:
it finds them in the state in which that node found them.
-/

namespace Parley.Step

/-- Of the session a node sees the variables and the contact. -/
theorem run_congr (setting : Setting) (n : Flow.Node) {session session' : Session}
    (hv : session'.vars = session.vars) (hc : session'.contact = session.contact)
    (answer : Option String) : run setting n session' answer = run setting n session answer := by
  unfold run effectOf
  rw [hv, hc]

end Parley.Step

namespace Parley.Turn

variable {σ : Type} (c : Collaborators σ)

/-! ### One step of a play -/

theorem play_guarded_undisturbed {α : Type} (clock : Rat) (deadline : Option Rat)
    (p : Step.StepProgram α) (world : σ) :
    (guarded deadline p).play (undisturbed c clock) world =
      (.ok (p.play c world).1, (p.play c world).2) := by
  induction p generalizing world with
  | done a => rfl
  | request op next ih =>
      rw [guarded]
      exact ih (c op world).1 (c op world).2

theorem play_step_undisturbed (clock : Rat) (f : Frame) (session : Session) (n : Flow.Node)
    (answer : Option String) (world : σ) :
    (step f session n answer).play (undisturbed c clock) world =
      (.ok ((Step.run f.setting n session answer).play c world).1,
        ((Step.run f.setting n session answer).play c world).2) := by
  unfold step
  rw [Program.play_bind, play_guarded_undisturbed]
  rfl

/-- A play that may be cut short comes as far as the undisturbed one, or is cut short. -/
theorem play_guarded_cutShort {α : Type} (clock : Rat) (i : Interruption) (deadline : Option Rat)
    (p : Step.StepProgram α) (k : Cutting σ) :
    (∃ passes, (guarded deadline p).play (cutShort c clock i) k =
        (.ok (p.play c k.now).1, ⟨(p.play c k.now).2, k.mark, passes⟩)) ∨
      ∃ now, (guarded deadline p).play (cutShort c clock i) k = (.error i, ⟨now, k.mark, 0⟩) := by
  induction p generalizing k with
  | done a => exact .inl ⟨k.passes, rfl⟩
  | request op next ih =>
      obtain ⟨now, mark, passes⟩ := k
      rw [guarded]
      cases passes with
      | zero => exact .inr ⟨now, rfl⟩
      | succ passes => exact ih (c op now).1 ⟨(c op now).2, mark, passes⟩

theorem play_step_cutShort (clock : Rat) (i : Interruption) (f : Frame) (session : Session)
    (n : Flow.Node) (answer : Option String) (k : Cutting σ) :
    (∃ passes, (step f session n answer).play (cutShort c clock i) k =
        (.ok ((Step.run f.setting n session answer).play c k.now).1,
          ⟨((Step.run f.setting n session answer).play c k.now).2, k.mark, passes⟩)) ∨
      ∃ now, (step f session n answer).play (cutShort c clock i) k =
        (.error i, ⟨now, k.mark, 0⟩) := by
  unfold step
  rw [Program.play_bind]
  rcases play_guarded_cutShort c clock i f.deadline (Step.run f.setting n session answer) k with
    ⟨passes, h⟩ | ⟨now, h⟩
  · rw [h]
    exact .inl ⟨passes, rfl⟩
  · rw [h]
    exact .inr ⟨now, rfl⟩

/-- An undisturbed turn runs a node, and goes where the outcome leads. -/
theorem play_advance_undisturbed (clock : Rat) (f : Frame) (left : Nat) (w : Walk) (n : Flow.Node)
    (answer : Option String) (world : σ) :
    (advance f (left + 1) w n answer).play (undisturbed c clock) world =
      match f.settle w.stepped n ((Step.run f.setting n w.session answer).play c world).1 with
      | .inl ending => (ending, ((Step.run f.setting n w.session answer).play c world).2)
      | .inr (w', m) => (advance f left w' m none).play (undisturbed c clock)
          ((Step.run f.setting n w.session answer).play c world).2 := by
  change ((step f w.session n answer).bind _).play (undisturbed c clock) world = _
  rw [Program.play_bind, play_step_undisturbed]
  dsimp only [Walk.stepped]
  generalize f.settle _ n _ = next
  cases next with
  | inl ending => rfl
  | inr next => rfl

/-! ### Two walks of which one began later -/

/-- The second walk has the variables of the first, and what the first says is what was said before
and then what the second says. -/
structure Echoes (said : List String) (w w' : Walk) : Prop where
  vars : w'.session.vars = w.session.vars
  contact : w'.session.contact = w.session.contact
  messages : said ++ w'.messages = w.messages

/-- The second turn leaves the session as the first one does, and what the first says is what was
said before and then what the second says. -/
structure Alike (said : List String) (s : Session) (r : Result) (s' : Session) (r' : Result) :
    Prop where
  status : s'.status = s.status
  currentNodeId : s'.currentNodeId = s.currentNodeId
  vars : s'.vars = s.vars
  messages : said ++ r'.messages = r.messages

/-- Where two turns go from two such walks: both end, or both go on at one node. -/
inductive Tallies (said : List String) :
    Ending ⊕ (Walk × Flow.Node) → Ending ⊕ (Walk × Flow.Node) → Prop where
  | ended {s s' : Session} {r r' : Result} (h : Alike said s r s' r') :
      Tallies said (.inl (.finished s r)) (.inl (.finished s' r'))
  | onward {w w' : Walk} {m : Flow.Node} (h : Echoes said w w') :
      Tallies said (.inr (w, m)) (.inr (w', m))

theorem Echoes.say {said : List String} {w w' : Walk} (h : Echoes said w w') (message : String) :
    Echoes said (w.say message) (w'.say message) :=
  ⟨h.vars, h.contact, by rw [Walk.say, Walk.say, ← h.messages, List.append_assoc]⟩

theorem Echoes.commit {said : List String} {w w' : Walk} (h : Echoes said w w') (f f' : Frame)
    (n : Flow.Node) (e : Step.Effect) : Echoes said (f.commit w n e) (f'.commit w' n e) where
  vars := congrArg (Entries.update · e.changes) h.vars
  contact := h.contact
  messages := by
    simp only [Frame.commit]
    rw [← h.messages, List.append_assoc]

theorem Echoes.finish {said : List String} {w w' : Walk} (h : Echoes said w w') (f f' : Frame)
    (hs : w'.session.status = w.session.status)
    (hn : w'.session.currentNodeId = w.session.currentNodeId) (state : State) (error : String)
    (handoff : Option Handoff) :
    Tallies said (.inl (f.finish w state error handoff))
      (.inl (f'.finish w' state error handoff)) :=
  .ended ⟨hs, hn, h.vars, h.messages⟩

theorem Echoes.fail {said : List String} {w w' : Walk} (h : Echoes said w w') {f f' : Frame}
    (hp : f'.policy = f.policy) (hn : w'.session.currentNodeId = w.session.currentNodeId)
    (state : State) (error : String) :
    Tallies said (.inl (f.fail w state error)) (.inl (f'.fail w' state error)) := by
  unfold Frame.fail
  rw [hp]
  have hw : Echoes said (w.become .error) (w'.become .error) := ⟨h.vars, h.contact, h.messages⟩
  exact (hw.say f.policy.errorMessage).finish f f' rfl hn state error none

/-- **One step.**  Two such walks go on alike after an outcome. -/
theorem settle_tallies {f f' : Frame} (hf : f'.setting = f.setting) {said : List String}
    {w w' : Walk} (h : Echoes said w w') (n : Flow.Node) (o : Step.Outcome) :
    Tallies said (f.settle w n o) (f'.settle w' n o) := by
  have hp : f'.policy = f.policy := congrArg Step.Setting.policy hf
  cases o with
  | failed error =>
      have hw : Echoes said
          { w with session := { f.record w.session n "failed" with currentNodeId := n.id } }
          { w' with session := { f'.record w'.session n "failed" with currentNodeId := n.id } } :=
        ⟨h.vars, h.contact, h.messages⟩
      exact hw.fail hp rfl .error _
  | done e =>
      have hw := h.commit f f' n e
      have hb (status : Session.Status) : Echoes said ((f.commit w n e).become status)
          ((f'.commit w' n e).become status) := ⟨hw.vars, hw.contact, hw.messages⟩
      simp only [Frame.settle, Frame.after, hf]
      -- the flow, the node and the policy are the same, so both are settled alike
      cases e.course with
      | wait => exact (hb .waitingInput).finish f f' rfl rfl .waitingInput "" none
      | handoff ho => exact (hb .handoff).finish f f' rfl rfl .handoff "" (some ho)
      | finish => exact (hb .completed).finish f f' rfl rfl .completed "" none
      | proceed next =>
          cases next with
          | none => exact (hb .completed).finish f f' rfl rfl .completed "" none
          | some next =>
              by_cases hn : next = ""
              · simp only [hn, if_true]
                exact (hb .completed).finish f f' rfl rfl .completed "" none
              · simp only [hn, if_false]
                cases f.setting.flow.node? next with
                | none => exact hw.fail hp rfl .error _
                | some m => exact .onward hw

/-- **All the steps.**  From two such walks, of which the second has no fewer steps left,
undisturbed turns end alike, unless the first one runs out of steps. -/
theorem advance_tallies {f f' : Frame} (hf : f'.setting = f.setting) (clock clock' : Rat)
    {said : List String} {left left' : Nat} (hle : left ≤ left') {w w' : Walk}
    (h : Echoes said w w') (n : Flow.Node) (answer : Option String) (world : σ) :
    ∃ s r after, (advance f left w n answer).play (undisturbed c clock) world =
        (.finished s r, after) ∧
      (r.state ≠ .stepLimit → ∃ s' r', (advance f' left' w' n answer).play (undisturbed c clock')
        world = (.finished s' r', after) ∧ Alike said s r s' r') := by
  -- on the steps of the first walk: where they are used up there is nothing to compare
  induction left generalizing left' w w' n answer world with
  | zero => exact ⟨_, _, world, rfl, fun hs => absurd rfl hs⟩
  | succ left ih =>
      obtain ⟨left', rfl⟩ : ∃ k, left' = k + 1 := ⟨left' - 1, by omega⟩
      rw [play_advance_undisturbed, play_advance_undisturbed, hf,
        Step.run_congr f.setting n h.vars h.contact answer]
      generalize (Step.run f.setting n w.session answer).play c world = run
      have hw : Echoes said w.stepped w'.stepped := ⟨h.vars, h.contact, h.messages⟩
      have ht := settle_tallies hf hw n run.1
      generalize f.settle w.stepped n run.1 = x, f'.settle w'.stepped n run.1 = x' at ht
      cases ht with
      | ended ha => exact ⟨_, _, run.2, rfl, fun _ => ⟨_, _, rfl, ha⟩⟩
      | onward hw => exact ih (by omega) hw _ none run.2

/-! ### Where a turn that is cut short halts -/

/-- What a turn that is cut short before a node, or while the node runs, leaves of its walk. -/
structure Halts (policy : Policy) (w : Walk) (n : Flow.Node) (s : Session) (r : Result) : Prop where
  status : s.status = .waitingInput
  currentNodeId : s.currentNodeId = n.id
  vars : s.vars = w.session.vars
  contact : s.contact = w.session.contact
  messages : r.messages = w.messages ++ [policy.errorMessage]

/-- A node that ran to its outcome does not end the turn in time. -/
theorem Settles.not_timeout {f : Frame} {w : Walk} {n : Flow.Node} {o : Step.Outcome} {s : Session}
    {r : Result} (h : Settles f w n o (.inl (.finished s r))) : r.state ≠ .timeout := by
  cases h <;> exact State.noConfusion

/-- **The halt.**  A turn that is cut short halts before some node `m`, or while `m` runs, and the
undisturbed turn passes that point too, with the collaborators as they were when `m` was begun. -/
theorem halts_of_play (clock : Rat) (i : Interruption) {f : Frame} {left : Nat} {w : Walk}
    {n : Flow.Node} {resumed : Bool} {answer : Option String} {k cut : Cutting σ}
    {stops : List Stop} {s : Session} {r : Result} (hn : f.setting.flow.Tells n)
    (h : (travel f left w n resumed answer).play (cutShort c clock i) k =
      ((stops, .finished s r), cut))
    (hs : r.state = .timeout) (hlast : ∀ st ∈ stops.getLast?, st.answer = none) :
    ∃ left' w' m, left' ≤ left ∧ f.setting.flow.Tells m ∧ Halts f.policy w' m s r ∧
      (advance f left w n answer).play (undisturbed c clock) k.now =
        (advance f left' w' m none).play (undisturbed c clock) cut.mark := by
  induction left generalizing w n resumed answer k stops with
  | zero =>
      cases h
      exact nomatch hs
  | succ left ih =>
      obtain ⟨now, mark, passes⟩ := k
      cases passes with
      | zero =>
          -- cancelled before `n` is run
          cases h
          obtain rfl : answer = none := hlast _ rfl
          exact ⟨left + 1, w, n, Nat.le_refl _, hn, ⟨rfl, rfl, rfl, rfl, rfl⟩, rfl⟩
      | succ passes =>
          change ((step f w.session n answer).bind _).play (cutShort c clock i) ⟨now, now, passes⟩ =
            _ at h
          rw [Program.play_bind] at h
          rcases play_step_cutShort c clock i f w.session n answer ⟨now, now, passes⟩ with
            ⟨passes', hp⟩ | ⟨now', hp⟩
          -- `n` ran to its outcome: both plays go on, and the halt is further on
          · rw [hp] at h
            rw [play_advance_undisturbed]
            generalize (Step.run f.setting n w.session answer).play c now = run at h
            obtain ⟨o, world⟩ := run
            dsimp only at h
            have hx := settles_settle f w.stepped n o
            generalize f.settle w.stepped n o = x at h hx
            cases x with
            | inl e =>
                cases h
                exact absurd hs hx.not_timeout
            | inr next =>
                obtain ⟨w', m⟩ := next
                cases hx with
                | proceeds _ hnext hm =>
                    simp only [Program.play_bind] at h
                    rcases ht : (travel f left _ m false none).play (cutShort c clock i)
                      ⟨world, now, passes'⟩ with ⟨⟨rest, e⟩, cut'⟩
                    rw [ht] at h
                    cases h
                    obtain ⟨left', w₁, m₁, hle, hm₁, hh, heq⟩ := ih (.of_node? hm hnext) ht
                      fun st hst => hlast st (by simp [List.getLast?_cons, Option.mem_def.mp hst])
                    exact ⟨left', w₁, m₁, Nat.le_succ_of_le hle, hm₁, hh, heq⟩
          -- interrupted while `n` runs
          · rw [hp] at h
            cases i with
            | abandoned => cases h
            | deadline | cancelled =>
                cases h
                obtain rfl : answer = none := hlast _ rfl
                exact ⟨left + 1, w, n, Nat.le_refl _, hn, ⟨rfl, rfl, rfl, rfl, rfl⟩, rfl⟩

/-! ### Two turns for one -/

/-- An undisturbed turn from the node where it begins. -/
theorem play_run_undisturbed (clock : Rat) {setting : Step.Setting} {now : Calendar.Moment}
    {session opened : Session} {message answer : Option String} {timeout : Option Binary64}
    {n : Flow.Node} (hflow : session.flowId = setting.flow.id)
    (he : entry setting.flow (begun now session message) (Step.givenAnswer message) =
      .ok (n, answer, opened)) (world : σ) :
    (run setting now session message timeout).play (undisturbed c clock) world =
      (advance ⟨setting, now, deadlineOf setting.policy timeout clock⟩
        setting.policy.maxSteps.toNat { session := opened } n answer).play
        (undisturbed c clock) world := by
  unfold begun counted at he
  unfold run
  dsimp only [Program.play, undisturbed]
  rw [if_neg (not_not_intro hflow), he]

/-- **An interrupted turn and the one that resumes it.**  A turn is cut short, whenever that is, at
a node that was not handed the message of the contact.  The turn on its own would have come to a
result.  Unless it would have run out of steps, the next turn, without a message and undisturbed,
leaves the status, the node and the variables that the turn on its own would have left; and what the
two turns say, without the apology in between, is what the turn on its own would have said.  The
collaborators answer the second turn from the state in which the node that was interrupted found
them. -/
theorem resume_transparent {setting : Step.Setting} (hd : setting.flow.defects = [])
    {now : Calendar.Moment} {session s₁ : Session} {message : Option String}
    {timeout : Option Binary64} {clock : Rat} {i : Interruption} {world : σ} {passes : Nat}
    {stops : List Stop} {r₁ : Result} {cut : Cutting σ}
    (hcut : (tour setting now session message timeout).play (cutShort c clock i)
      ⟨world, world, passes⟩ = ((stops, .finished s₁ r₁), cut))
    (hs : r₁.state = .timeout) (hlast : ∀ st ∈ stops.getLast?, st.answer = none)
    (now' : Calendar.Moment) (timeout' : Option Binary64) (clock' : Rat) :
    ∃ s r after, (run setting now session message timeout).play (undisturbed c clock) world =
        (.finished s r, after) ∧
      (r.state ≠ .stepLimit → ∃ s₂ r₂ said,
        (run setting now' s₁ none timeout').play (undisturbed c clock') cut.mark =
          (.finished s₂ r₂, after) ∧
        s₂.status = s.status ∧ s₂.currentNodeId = s.currentNodeId ∧ s₂.vars = s.vars ∧
        r₁.messages = said ++ [setting.policy.errorMessage] ∧
          said ++ r₂.messages = r.messages) := by
  have hends := Program.ends_play (cutShort c clock i) (tour setting now session message timeout)
    ⟨world, world, passes⟩
  rw [hcut] at hends
  have hkeeps : s₁.flowId = session.flowId := (keeps_of_tours (tours_of_ends hends)).flowId
  unfold tour at hcut
  dsimp only [Program.play, cutShort] at hcut
  split at hcut
  · cases hcut
    exact nomatch hs
  · next hne =>
    have hflow := Decidable.not_not.mp hne
    split at hcut
    · cases hcut
      exact nomatch hs
    · next n answer opened he =>
      have hn := (enters_of_entry he).tells hd
      -- the cut turn halts at a node, and the turn that is not cut goes on from there
      obtain ⟨left, w, m, hle, hm, hh, heq⟩ := halts_of_play c clock i hn hcut hs hlast
      obtain ⟨given, opened', he'⟩ := entry_of_waits hm
        ((status_begun now' s₁ none).trans hh.status)
        ((currentNodeId_begun now' s₁ none).trans hh.currentNodeId) (Step.givenAnswer none)
      rw [play_run_undisturbed c clock hflow he, heq,
        play_run_undisturbed c clock' (hkeeps.trans hflow) he']
      have hen := enters_of_entry he'
      have hvars : opened'.vars = w.session.vars :=
        hen.vars.trans ((vars_begun now' s₁ none).trans hh.vars)
      have hcontact : opened'.contact = w.session.contact :=
        ((keeps_begun now' s₁ none).trans hen.keeps).contact.trans hh.contact
      have hw : Echoes w.messages w { session := opened' } :=
        ⟨hvars, hcontact, List.append_nil w.messages⟩
      obtain rfl := hen.given
      have hf : (Frame.mk setting now' (deadlineOf setting.policy timeout' clock')).setting =
          (Frame.mk setting now (deadlineOf setting.policy timeout clock)).setting := rfl
      obtain ⟨s, r, after, hwhole, hrest⟩ :=
        advance_tallies c hf clock clock' hle hw m none cut.mark
      refine ⟨s, r, after, hwhole, fun hlimit => ?_⟩
      obtain ⟨s₂, r₂, hplay, ha⟩ := hrest hlimit
      exact ⟨s₂, r₂, w.messages, hplay, ha.status, ha.currentNodeId, ha.vars, hh.messages,
        ha.messages⟩

/-- The greeting, interrupted in its pause: the next turn asks for the name, as the turn on its own
would have done. -/
theorem resume_transparent_greeting :
    greetingSetting.flow.defects = [] ∧
    ∃ stops s₁ r₁ cut, (tour greetingSetting newYear newcomer (some "hi") none).play
        (cutShort silent 0 .deadline) ⟨(), (), 3⟩ = ((stops, .finished s₁ r₁), cut) ∧
      r₁.state = .timeout ∧ (∀ st ∈ stops.getLast?, st.answer = none) ∧
      ∃ s r after, (run greetingSetting newYear newcomer (some "hi") none).play
          (undisturbed silent 0) () = (.finished s r, after) ∧ r.state = .waitingInput ∧
        ∃ s₂ r₂ said, (run greetingSetting newYear s₁ none none).play
          (undisturbed silent 0) cut.mark =
            (.finished s₂ r₂, after) ∧
          s₂.status = s.status ∧ s₂.currentNodeId = s.currentNodeId ∧ s₂.vars = s.vars ∧
          r₁.messages = said ++ [greetingSetting.policy.errorMessage] ∧
          said ++ r₂.messages = r.messages := by
  have hd : greetingSetting.flow.defects = [] := by decide +kernel
  have hstate : greetingHalted.2.result?.map (·.state) = some .timeout := by decide +kernel
  have hanswer : greetingHalted.1.getLast?.all (·.answer.isNone) = true := by decide +kernel
  have hwhole : ((run greetingSetting newYear newcomer (some "hi") none).play
      (undisturbed silent 0) ()).1.result?.map (·.state) = some .waitingInput := by decide +kernel
  unfold greetingHalted at hstate hanswer
  rcases hcut : (tour greetingSetting newYear newcomer (some "hi") none).play
    (cutShort silent 0 .deadline) ⟨(), (), 3⟩ with ⟨⟨stops, e⟩, cut⟩
  rw [hcut] at hstate hanswer
  cases e with
  | abandoned s => cases hstate
  | finished s₁ r₁ =>
      have hs : r₁.state = .timeout := Option.some.inj hstate
      have hlast : ∀ st ∈ stops.getLast?, st.answer = none := fun st hst =>
        Option.isNone_iff_eq_none.mp (by rw [Option.mem_def.mp hst] at hanswer; exact hanswer)
      obtain ⟨s, r, after, hr, hrest⟩ :=
        resume_transparent silent hd hcut hs hlast newYear none 0
      rw [hr] at hwhole
      have hwait : r.state = .waitingInput := Option.some.inj hwhole
      exact ⟨hd, stops, s₁, r₁, cut, rfl, hs, hlast, s, r, after, hr, hwait,
        hrest (by rw [hwait]; exact State.noConfusion)⟩

end Parley.Turn
