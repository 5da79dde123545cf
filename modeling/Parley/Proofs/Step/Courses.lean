import Parley.Proofs.Program
import Parley.Step.Run

/-!
# What an action may come to, and the courses that a node may take

`Gives a x`: whatever the collaborators answer, one way for the action `a` to end is with `x`, and
without a fault.  `Still a`: the action asks nothing of anyone.  Both follow the way in which
actions are put together (`gives_bind`, `gives_tryCatch`, `Still.bind`), so what a node may come to
is read off its definition.  `run_gives` and `run_quiet` are the same for the whole step of a node.

An effect that goes on tells in its metadata by which handle the node is left (`Effect.handle`), and
leads where the router leads for that handle (`Routes`).  The other courses are for a few kinds of
nodes each: some may wait (`MayWait`), some may hand off (`MayHandOff`), and an ending finishes.
`Allows s n e` says so of an effect, and `allows_of_ends` that it holds of every effect of a node.

`Ensures P a`: every effect that the action gives has the property.  It follows the way in which
actions are put together; the lemma on each kind of node asks of the property what the kind needs,
that it holds of what is routed (`hr`) and, where the kind waits, hands off or finishes, of what
does.
-/

namespace Parley.Step

open Template (fill)

variable {α β : Type}

/-! ### Faults -/

/-- A chain of two parts succeeds when both do. -/
theorem bind_eq_ok {r : Except Fault α} {g : α → Except Fault β} {y : β} :
    (r >>= g) = .ok y ↔ ∃ x, r = .ok x ∧ g x = .ok y := by
  cases r <;> simp [bind, Except.bind]

theorem pure_eq_ok {x y : α} : (pure x : Except Fault α) = .ok y ↔ y = x := by
  rw [eq_comm]
  exact ⟨fun h => Except.ok.inj h, fun h => congrArg Except.ok h⟩

/-! ### Values -/

/-- The action may end with the value. -/
def Gives (a : Action α) (x : α) : Prop := Program.Ends a.run (Except.ok x : Except Fault α)

theorem gives_pure {x y : α} : Gives (pure x) y ↔ y = x :=
  Program.ends_done_iff.trans ⟨fun h => Except.ok.inj h, fun h => congrArg Except.ok h⟩

theorem gives_throw {f : Fault} {x : α} : ¬ Gives (throw f) x := by
  intro h
  cases Program.ends_done_iff.mp h

/-- What may fail gives what it succeeds with. -/
theorem gives_lift {r : Except Fault α} {x : α} : Gives (liftM r) x ↔ r = .ok x :=
  Program.ends_done_iff.trans eq_comm

/-- An action gives what its second part gives after the first. -/
theorem gives_bind {a : Action α} {g : α → Action β} {y : β} :
    Gives (a >>= g) y ↔ ∃ x, Gives a x ∧ Gives (g x) y := by
  refine Program.ends_bind_iff.trans ⟨?_, ?_⟩
  · rintro ⟨r, hr, h⟩
    cases r with
    | ok x => exact ⟨x, hr, h⟩
    | error f => cases Program.ends_done_iff.mp h
  · rintro ⟨x, hx, h⟩
    exact ⟨.ok x, hx, h⟩

/-- An action with a handler gives what it gives itself, and what the handler gives after a fault.
-/
theorem gives_tryCatch {a : Action α} {g : Fault → Action α} {y : α} :
    Gives (tryCatch a g) y ↔ Gives a y ∨ ∃ f, Program.Ends a.run (Except.error f) ∧
      Gives (g f) y := by
  refine Program.ends_bind_iff.trans ⟨?_, ?_⟩
  · rintro ⟨r, hr, h⟩
    cases r with
    | ok x =>
        cases Program.ends_done_iff.mp h
        exact .inl hr
    | error f => exact .inr ⟨f, hr, h⟩
  · rintro (h | ⟨f, hf, h⟩)
    · exact ⟨.ok y, h, .done _⟩
    · exact ⟨.error f, hf, h⟩

/-! ### Actions that ask nothing -/

/-- The action asks nothing of anyone. -/
def Still (a : Action α) : Prop := Program.Quiet a.run

theorem still_pure (x : α) : Still (pure x) := trivial

theorem still_throw (f : Fault) : Still (throw f : Action α) := trivial

/-- What may fail asks for nothing. -/
theorem still_lift (r : Except Fault α) : Still (liftM r : Action α) := trivial

/-- An action asks for nothing when neither part of it does. -/
theorem Still.bind {a : Action α} {g : α → Action β} (ha : Still a) (hg : ∀ x, Still (g x)) :
    Still (a >>= g) :=
  Program.Quiet.bind ha fun r => by
    cases r with
    | ok x => exact hg x
    | error f => trivial

/-! ### Steps -/

/-- A step ends with an effect when its action may give that effect. -/
theorem run_gives {s : Setting} {n : Flow.Node} {session : Session} {answer : Option String}
    {e : Effect} (h : (run s n session answer).Ends (.done e)) :
    Gives (effectOf s n session (givenAnswer answer)) e := by
  obtain ⟨r, hr, h⟩ := Program.ends_bind_iff.mp h
  have ho := Program.ends_done_iff.mp h
  cases r with
  | ok e' =>
      cases ho
      exact hr
  | error f => cases ho

/-- A node is run in silence when its effect asks for nothing. -/
theorem run_quiet {s : Setting} {n : Flow.Node} {session : Session} {answer : Option String}
    (h : Still (effectOf s n session (givenAnswer answer))) : (run s n session answer).Quiet :=
  Program.Quiet.bind h fun _ => trivial

/-! ### Courses -/

/-- The handle by which the node is left. -/
def Effect.handle (e : Effect) : String :=
  match e.metadata.get? "handle" with
  | some (.text handle) => handle
  | _ => ""

/-- The node ends the flow. -/
def IsEnding (n : Flow.Node) : Prop := ∃ d, n.block = .ending d

/-- The node is of a kind that puts questions. -/
def MayWait (n : Flow.Node) : Prop :=
  match n.block with
  | .input _ | .menu _ | .welcome _ | .contractSearch _ | .leadCapture _ => True
  | _ => False

/-- The node is of a kind that calls for a person. -/
def MayHandOff (n : Flow.Node) : Prop :=
  match n.block with
  | .handoff _ | .welcome _ => True
  | _ => False

variable {s : Setting} {id : String} {vars : Fields}

/-- The effect leads where the router leads for its handle. -/
def Routes (s : Setting) (id : String) (e : Effect) : Prop := s.onward id e.handle = .ok e.course

/-- What is routed goes on, or nowhere. -/
theorem Routes.proceed {e : Effect} (h : Routes s id e) :
    ∃ next, s.next id e.handle = .ok next ∧ e.course = .proceed next := by
  unfold Routes Setting.onward at h
  cases hn : s.next id e.handle with
  | error f =>
      rw [hn] at h
      cases h
  | ok next =>
      rw [hn] at h
      exact ⟨next, rfl, (Except.ok.inj h).symm⟩

/-! ### Properties of effects -/

/-- Every effect that the action gives has the property. -/
def Ensures (P : Effect → Prop) (a : Action Effect) : Prop := ∀ e, Gives a e → P e

variable {P : Effect → Prop}

namespace Ensures

/-- The last part of an action ensures what the action does. -/
theorem bind {a : Action α} {g : α → Action Effect} (h : ∀ x, Ensures P (g x)) :
    Ensures P (a >>= g) := by
  intro e he
  obtain ⟨x, -, he⟩ := gives_bind.mp he
  exact h x e he

theorem pure {e : Effect} (h : P e) : Ensures P (pure e) :=
  fun e' he => by rwa [gives_pure.mp he]

/-- A fault gives no effect, and so it ensures anything. -/
theorem throw (f : Fault) : Ensures P (throw f) := fun _ he => absurd he gives_throw

/-- What may fail ensures what its success does. -/
theorem lift {r : Except Fault Effect} (h : ∀ e, r = .ok e → P e) : Ensures P (liftM r) :=
  fun e he => h e (gives_lift.mp he)

theorem lift_bind {r : Except Fault α} {g : α → Except Fault Effect}
    (h : ∀ x, Ensures P (liftM (g x))) : Ensures P (liftM (r >>= g)) := by
  refine .lift fun e he => ?_
  obtain ⟨x, -, he⟩ := bind_eq_ok.mp he
  exact h x e (gives_lift.mpr he)

theorem lift_pure {e : Effect} (h : P e) : Ensures P (liftM (Pure.pure e : Except Fault Effect)) :=
  .lift fun e' he => by rwa [pure_eq_ok.mp he]

/-- Who goes on by a handle ensures whatever all routes of the handle have. -/
theorem lift_onward (hr : ∀ e, Routes s id e → P e) {handle : String} {g : Course → Effect}
    (hc : ∀ c, (g c).course = c) (hh : ∀ c, (g c).handle = handle) :
    Ensures P (liftM (s.onward id handle >>= fun c =>
      (Pure.pure (g c) : Except Fault Effect))) := by
  refine .lift fun e he => ?_
  obtain ⟨c, ho, he⟩ := bind_eq_ok.mp he
  rw [pure_eq_ok.mp he]
  refine hr _ ?_
  rw [Routes, hc, hh, ho]

/-- An effect that goes on by a handle. -/
theorem onward (hr : ∀ e, Routes s id e → P e) {handle : String} {g : Course → Effect}
    (hc : ∀ c, (g c).course = c) (hh : ∀ c, (g c).handle = handle) :
    Ensures P (liftM (s.onward id handle) >>= fun c => Pure.pure (g c)) := by
  intro e he
  obtain ⟨c, ho, he⟩ := gives_bind.mp he
  rw [gives_pure.mp he]
  refine hr _ ?_
  rw [Routes, hc, hh, gives_lift.mp ho]

end Ensures

/-! ### Choices among contracts -/

/-- The place of the contract that an answer chooses among those that wait. -/
def chosenAmong (waiting : Value) : Option String → Except Fault (Option Nat)
  | none => pure none
  | some a =>
    if Text.isDigitText a then do
      let n ← wholeOf a
      if n = 0 then pure none
      else return if n ≤ (← sizeOf waiting) then some (n - 1) else none
    else pure none

/-- A choice is read first, and then comes to a contract or to the list once more. -/
theorem chooseContract_eq (s : Setting) (id : String) (d : Flow.ContractSearch) (message : String)
    (waiting : Value) (answer : Option String) :
    chooseContract s id d message waiting answer = chosenAmong waiting answer >>= fun
      | some i => do contractFound s id d (← itemAt waiting i) (← sizeOf waiting)
      | none => return { output := .one (← contractList message waiting), course := .wait } := by
  cases answer with
  | none => rfl
  | some a =>
      unfold chooseContract chosenAmong
      dsimp only
      split
      · cases wholeOf a with
        | error x => rfl
        | ok n =>
            change (if n = 0 then _ else _) = (if n = 0 then _ else _) >>= _
            split
            · rfl
            · cases sizeOf waiting <;> rfl
      · rfl

/-! ### Nodes that go on -/

section Routed

variable (hr : ∀ e, Routes s id e → P e)
include hr

theorem runStart_ensures :
    Ensures P (liftM (runStart s id)) := .lift_onward hr (fun _ => rfl) fun _ => rfl

theorem runMessage_ensures (d : Flow.Message) : Ensures P (liftM (runMessage s id vars d)) := by
  refine .lift_bind fun text => ?_
  dsimp only
  split
  · exact .lift_onward hr (fun _ => rfl) fun _ => rfl
  · exact .lift_bind fun url => .lift_onward hr (fun _ => rfl) fun _ => rfl

theorem runCondition_ensures (d : Flow.Branch) : Ensures P (liftM (runCondition s id vars d)) :=
  .lift_bind fun _ => .lift_onward hr (fun _ => rfl) fun _ => rfl

theorem runDelay_ensures (d : Flow.Delay) : Ensures P (runDelay s id d) := by
  unfold runDelay
  dsimp only
  split
  · exact .bind fun _ => .onward hr (fun _ => rfl) fun _ => rfl
  · exact .onward hr (fun _ => rfl) fun _ => rfl

theorem runTag_ensures (d : Flow.Tag) : Ensures P (liftM (runTag s id vars d)) := by
  refine .lift_bind fun name => ?_
  dsimp only
  split
  · exact .lift fun e he => nomatch he
  · exact .lift_bind fun _ => .lift_onward hr (fun _ => rfl) fun _ => rfl

theorem runAssignment_ensures (d : Flow.Assignment) :
    Ensures P (liftM (runAssignment s id vars d)) := by
  unfold runAssignment
  split
  · split <;> exact .lift_bind fun _ => .lift_onward hr (fun _ => rfl) fun _ => rfl
  · exact .lift_bind fun _ => .lift_onward hr (fun _ => rfl) fun _ => rfl
  · exact .lift_bind fun _ => .lift_onward hr (fun _ => rfl) fun _ => rfl

/-- An assistant waits for a message, or has replied and is left. -/
theorem runAssistant_ensures (d : Flow.Assistant) (answer : Option String) :
    Ensures P (runAssistant s id vars d answer) := by
  refine .bind fun prompt => .bind fun context => ?_
  cases answer <;> refine .bind fun message => .bind fun reply => ?_
  all_goals
    dsimp only
    split <;> exact .bind fun _ => .onward hr (fun _ => rfl) fun _ => rfl

theorem runWebhook_ensures (d : Flow.Webhook) : Ensures P (runWebhook s id vars d) :=
  .bind fun _ => .bind fun _ => .bind fun _ => .onward hr (fun _ => rfl) fun _ => rfl

theorem runClientTag_ensures (d : Flow.ClientTag) : Ensures P (runClientTag s id vars d) := by
  unfold runClientTag
  dsimp only
  split
  · exact .bind fun _ => .onward hr (fun _ => rfl) fun _ => rfl
  · split <;> exact .bind fun _ => .onward hr (fun _ => rfl) fun _ => rfl

/-- A lead that is settled leaves its node. -/
theorem finishLead_ensures (d : Flow.LeadCapture) (captured : Fields) :
    Ensures P (finishLead s id vars d captured) := by
  intro e he
  obtain ⟨settled, hs, he⟩ := gives_bind.mp he
  cases settled with
  | error f =>
      have hfailed : Ensures P (liftM (leadFailed s id vars d captured f)) :=
        .lift_bind fun _ => .lift_onward hr (fun _ => rfl) fun _ => rfl
      exact hfailed e he
  | ok known =>
      cases known with
      | none =>
          have hsaved : Ensures P (liftM (leadSaved s id vars d captured)) :=
            .lift_bind fun _ => .lift_onward hr (fun _ => rfl) fun _ => rfl
          exact hsaved e he
      | some known =>
          obtain rfl := gives_pure.mp he
          rcases gives_tryCatch.mp hs with hs | ⟨f, -, hs⟩
          -- a lead that was known already was found so by `settleLead`
          · obtain ⟨r, hr', hs⟩ := gives_bind.mp hs
            obtain rfl := Except.ok.inj (gives_pure.mp hs)
            obtain ⟨known, -, hr'⟩ := gives_bind.mp hr'
            cases known with
            | true =>
                obtain ⟨e', he', hr'⟩ := gives_bind.mp hr'
                obtain rfl := Option.some.inj (gives_pure.mp hr')
                have hknown : Ensures P (leadKnown s id vars d captured) :=
                  .bind fun _ => .onward hr (fun _ => rfl) fun _ => rfl
                exact hknown e he'
            | false =>
                obtain ⟨_, -, hr'⟩ := gives_bind.mp hr'
                cases gives_pure.mp hr'
          · cases gives_pure.mp hs

theorem contractFound_ensures (d : Flow.ContractSearch) (contract : Value) (count : Nat) :
    Ensures P (liftM (contractFound s id d contract count)) :=
  .lift_bind fun _ => .lift_onward hr (fun _ => rfl) fun _ => rfl

/-- A welcoming assistant that is answered hands off or goes on. -/
theorem runWelcome_ensures (hh : ∀ e h, e.course = .handoff h → P e) (d : Flow.Welcome)
    (answer : String) : Ensures P (runWelcome s id vars d (some answer)) := by
  refine .bind fun read => .bind fun processed => ?_
  dsimp only
  split
  · exact .lift_bind fun _ => .lift_bind fun _ => .lift_pure (hh _ _ rfl)
  · split
    · exact .lift_bind fun _ => .lift_onward hr (fun _ => rfl) fun _ => rfl
    · refine .bind fun reply => ?_
      dsimp only
      split <;> exact .bind fun _ => .bind fun _ => .onward hr (fun _ => rfl) fun _ => rfl

/-! ### Nodes that may wait -/

section Waiting

variable (hw : ∀ e, e.course = .wait → P e)
include hw

/-- A question is asked, asked again, or answered and left. -/
theorem runInput_ensures (d : Flow.Question) (answer : Option String) :
    Ensures P (liftM (runInput s id vars d answer)) := by
  cases answer with
  | none => exact .lift_bind fun _ => .lift_pure (hw _ rfl)
  | some answer =>
      refine .lift_bind fun valid => ?_
      cases valid with
      | true => exact .lift_onward hr (fun _ => rfl) fun _ => rfl
      | false => exact .lift_bind fun _ => .lift_pure (hw _ rfl)

/-- A menu is shown, shown again, or left by the handle of a choice. -/
theorem runMenu_ensures (d : Flow.Menu) (answer : Option String) :
    Ensures P (liftM (runMenu s id vars d answer)) := by
  refine .lift_bind fun title => ?_
  cases answer with
  | none => exact .lift_pure (hw _ rfl)
  | some answer =>
      refine .lift_bind fun choice => ?_
      cases choice with
      | none => exact .lift_bind fun _ => .lift_pure (hw _ rfl)
      | some c => exact .lift_onward hr (fun _ => rfl) fun _ => rfl

theorem chooseContract_ensures (d : Flow.ContractSearch) (message : String) (waiting : Value)
    (answer : Option String) :
    Ensures P (liftM (chooseContract s id d message waiting answer)) := by
  rw [chooseContract_eq]
  refine .lift_bind fun chosen => ?_
  cases chosen with
  | none => exact .lift_bind fun _ => .lift_pure (hw _ rfl)
  | some i => exact .lift_bind fun _ => .lift_bind fun _ => contractFound_ensures hr d _ _

theorem settleSearch_ensures (d : Flow.ContractSearch) (message : String) (contracts : Value) :
    Ensures P (liftM (settleSearch s id vars d message contracts)) := by
  unfold settleSearch
  split
  · exact .lift_bind fun _ => .lift_onward hr (fun _ => rfl) fun _ => rfl
  · refine .lift_bind fun count => ?_
    split
    · exact .lift_bind fun _ => .lift_pure (hw _ rfl)
    · exact .lift_bind fun _ => contractFound_ensures hr d _ _

/-- A search for a contract waits for an answer, or is left by the handle of its result. -/
theorem runContractSearch_ensures (contact : Contact) (d : Flow.ContractSearch)
    (answer : Option String) : Ensures P (runContractSearch s id vars contact d answer) := by
  refine .bind fun message => ?_
  split
  · exact chooseContract_ensures hr hw d message _ answer
  · exact .bind fun _ => .bind fun _ => settleSearch_ensures hr hw d message _

theorem answerLead_ensures (d : Flow.LeadCapture) (fields : List String) (i : Int)
    (field question answer : String) :
    Ensures P (answerLead s id vars d fields i field question answer) := by
  unfold answerLead
  dsimp only
  split
  · exact .pure (hw _ rfl)
  · refine .bind fun captured => ?_
    split
    · exact .bind fun _ => .bind fun _ => .pure (hw _ rfl)
    · exact finishLead_ensures hr d _

/-- A lead capture waits for a field, or is left by the handle of its end. -/
theorem runLeadCapture_ensures (d : Flow.LeadCapture) (answer : Option String) :
    Ensures P (runLeadCapture s id vars d answer) := by
  unfold runLeadCapture
  split
  · exact .throw _
  · dsimp only
    split
    · exact .lift_bind fun _ => .lift_bind fun _ => .lift_pure (hw _ rfl)
    · split
      · exact fun _ he => absurd (gives_bind.mp he) fun ⟨_, h, _⟩ => gives_throw h
      · refine .bind fun field => .bind fun question => ?_
        cases answer with
        | none => exact .pure (hw _ rfl)
        | some a => exact answerLead_ensures hr hw d _ _ field question a

end Waiting

end Routed

/-! ### Nodes that end the turn -/

/-- A hand-off goes nowhere. -/
theorem runHandoff_ensures (hh : ∀ e h, e.course = .handoff h → P e) (d : Flow.Transfer) :
    Ensures P (liftM (runHandoff id vars d)) :=
  .lift_bind fun _ => .lift_bind fun _ => .lift_pure (hh _ _ rfl)

/-- An ending goes nowhere. -/
theorem runEnding_ensures (hf : ∀ e, e.course = .finish → P e) (d : Flow.Ending) :
    Ensures P (liftM (runEnding vars d)) :=
  .lift_bind fun _ => .lift_pure (hf _ rfl)

/-! ### All nodes -/

variable {n : Flow.Node} {e : Effect}

/-- The course of an effect is one that the node may take. -/
inductive Allows (s : Setting) (n : Flow.Node) (e : Effect) : Prop where
  | waits (hn : MayWait n) (hc : e.course = .wait)
  | handsOff {h : Handoff} (hn : MayHandOff n) (hc : e.course = .handoff h)
  | finishes (hn : IsEnding n) (hc : e.course = .finish)
  | routes (h : Routes s n.id e)

/-- **The courses of nodes**, one case for each kind. -/
theorem effectOf_allows (s : Setting) (n : Flow.Node) (session : Session) (answer : Option String) :
    Ensures (Allows s n) (effectOf s n session answer) := by
  have hr (e : Effect) (h : Routes s n.id e) : Allows s n e := .routes h
  have hw (hn : MayWait n) (e : Effect) (hc : e.course = .wait) : Allows s n e := .waits hn hc
  have hh (hn : MayHandOff n) (e : Effect) (h : Handoff) (hc : e.course = .handoff h) :
      Allows s n e :=
    .handsOff hn hc
  unfold effectOf
  unfold MayWait at hw
  unfold MayHandOff at hh
  cases hn : n.block with
  | start d => exact runStart_ensures hr
  | message d => exact runMessage_ensures hr d
  | input d => exact runInput_ensures hr (hw (by simp [hn])) d answer
  | menu d => exact runMenu_ensures hr (hw (by simp [hn])) d answer
  | condition d => exact runCondition_ensures hr d
  | assistant d => exact runAssistant_ensures hr d answer
  | welcome d =>
      cases answer with
      | none => exact .bind fun _ => .pure (hw (by simp [hn]) _ rfl)
      | some answer => exact runWelcome_ensures hr (hh (by simp [hn])) d answer
  | handoff d => exact runHandoff_ensures (hh (by simp [hn])) d
  | webhook d => exact runWebhook_ensures hr d
  | delay d => exact runDelay_ensures hr d
  | tag d => exact runTag_ensures hr d
  | assignment d => exact runAssignment_ensures hr d
  | contractSearch d =>
      exact runContractSearch_ensures hr (hw (by simp [hn])) session.contact d answer
  | clientTag d => exact runClientTag_ensures hr d
  | leadCapture d => exact runLeadCapture_ensures hr (hw (by simp [hn])) d answer
  | ending d => exact runEnding_ensures (fun e hc => .finishes ⟨d, hn⟩ hc) d
  | unknown kind raw => exact .throw _

/-- **Every effect of a node takes a course that the node may take.** -/
theorem allows_of_ends {session : Session} {answer : Option String}
    (h : (run s n session answer).Ends (.done e)) : Allows s n e :=
  effectOf_allows s n session (givenAnswer answer) e (run_gives h)

end Parley.Step
