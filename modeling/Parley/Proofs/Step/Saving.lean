import Parley.Proofs.Requests
import Parley.Proofs.Step.Prompt

/-!
# How often a node saves a lead

Only a lead capture saves leads, and a step of it does so at most once (`run_saves_once`).  It does
so when the last field is answered, so not when it is handed no answer (`run_saves_nothing`); and a
step that has asked for the lead to be saved does not wait, whatever came of it
(`unsaved_of_waits`).
-/

namespace Parley.Step

variable {α β : Type} {s : Setting} {id : String} {vars : Fields} {k : Nat}

/-- The request is to save a lead. -/
def Op.savesLead : Op → Bool
  | .consult (.saveLead ..) _ => true
  | _ => false

/-- The action asks at most so many times for a lead to be saved. -/
def Saves (k : Nat) (a : Action α) : Prop := Program.AsksAtMost Op.savesLead k a.run

/-! ### Actions in parts -/

/-- What asks for nothing saves no lead. -/
theorem Still.saves {a : Action α} (h : Still a) : Saves k a := Program.Quiet.asksAtMost h

/-- Who asks anything else than to save a lead saves none. -/
theorem saves_consult {c : Consultation} (h : (Op.consult c s.policy.callBound).savesLead = false) :
    Saves 0 (s.consult c) := by
  change Program.AsksAtMost Op.savesLead 0 (Program.ask (Op.consult c s.policy.callBound))
  exact Program.asksAtMost_request h fun _ => trivial

theorem saves_needs {present : Bool} {otherwise : String} : Saves k (needs present otherwise) := by
  unfold needs
  split
  · exact (still_pure _).saves
  · exact (still_throw _).saves

/-- An action after one that saves nothing. -/
theorem Saves.bind {a : Action α} {g : α → Action β} (h : Saves 0 a) (hg : ∀ x, Saves k (g x)) :
    Saves k (a >>= g) := by
  refine (Program.AsksAtMost.bind h fun r => ?_).mono (Nat.le_of_eq (Nat.zero_add k))
  cases r with
  | ok x => exact hg x
  | error f => trivial

/-- An action before one that saves nothing. -/
theorem Saves.bind_none {a : Action α} {g : α → Action β} (h : Saves k a)
    (hg : ∀ x, Saves 0 (g x)) :
    Saves k (a >>= g) := by
  refine Program.AsksAtMost.bind (m := 0) h fun r => ?_
  cases r with
  | ok x => exact hg x
  | error f => trivial

/-- An action may save leads before a fault, when its handler saves none. -/
theorem Saves.tryCatch {a : Action α} {g : Fault → Action α} (h : Saves k a)
    (hg : ∀ f, Saves 0 (g f)) : Saves k (tryCatch a g) :=
  Program.AsksAtMost.bind (m := 0) h fun r => by
    cases r with
    | ok x => trivial
    | error f => exact hg f

theorem Saves.ite {c : Prop} [Decidable c] {a b : Action α} (ha : Saves k a) (hb : Saves k b) :
    Saves k (if c then a else b) := by
  split
  · exact ha
  · exact hb

/-- What is computed first asks for nothing. -/
theorem Saves.lift_bind {r : Except Fault α} {g : α → Action β} (hg : ∀ x, Saves k (g x)) :
    Saves k (liftM r >>= g) :=
  .bind (still_lift r).saves hg

/-! ### Nodes that save no lead -/

theorem saves_replyOr {ask : Action String} (h : Saves 0 ask) : Saves 0 (replyOr ask) :=
  h.tryCatch fun _ => (still_pure _).saves

theorem runDelay_saves (d : Flow.Delay) : Saves 0 (runDelay s id d) := by
  unfold runDelay
  dsimp only
  split
  · exact .bind (fun _ => trivial) fun _ => .lift_bind fun _ => (still_pure _).saves
  · exact .lift_bind fun _ => (still_pure _).saves

theorem runAssistant_saves (d : Flow.Assistant) (answer : Option String) :
    Saves 0 (runAssistant s id vars d answer) := by
  refine .lift_bind fun prompt => .lift_bind fun context => ?_
  cases answer <;> refine .bind (Still.saves ?_) fun message => ?_
  any_goals trivial
  all_goals
    refine .bind (saves_replyOr (saves_needs.bind fun _ => saves_consult rfl)) fun reply => ?_
    dsimp only
    split <;> exact .lift_bind fun _ => .lift_bind fun _ => (still_pure _).saves

theorem readMediaOr_saves (d : Flow.Welcome) (payload : String) (kind : Media.Kind) :
    Saves 0 (readMediaOr s d payload kind) := by
  have hread : Saves 0 (readMedia s d payload kind) := by
    unfold readMedia
    cases kind with
    | text => exact (still_pure _).saves
    | audio =>
        dsimp only
        split
        · exact (still_pure _).saves
        · exact .bind (saves_consult rfl) fun _ => (still_pure _).saves
    | paymentProof =>
        dsimp only
        split
        · exact (still_pure _).saves
        · refine .bind (saves_consult rfl) fun _ => .lift_bind fun _ => ?_
          split
          · exact (still_pure _).saves
          · exact (still_throw _).saves
    | image | document =>
        dsimp only
        split
        · exact (still_pure _).saves
        · exact .bind (saves_consult rfl) fun _ => .lift_bind fun _ => (still_pure _).saves
  unfold readMediaOr
  split
  · exact hread.tryCatch fun _ => (still_pure _).saves
  · exact (still_pure _).saves

theorem runWelcome_saves (d : Flow.Welcome) (answer : Option String) :
    Saves 0 (runWelcome s id vars d answer) := by
  cases answer with
  | none => exact .lift_bind fun _ => (still_pure _).saves
  | some answer =>
      refine .bind (readMediaOr_saves d answer _) fun read => .lift_bind fun processed => ?_
      dsimp only
      split
      · exact (still_lift _).saves
      · split
        · exact (still_lift _).saves
        · refine .bind (saves_replyOr ?_) fun reply => ?_
          · exact saves_needs.bind fun _ => .lift_bind fun _ => .lift_bind fun _ =>
              saves_consult rfl
          · dsimp only
            split <;> exact .lift_bind fun _ => .lift_bind fun _ => .lift_bind fun _ =>
              (still_pure _).saves

theorem runWebhook_saves (d : Flow.Webhook) : Saves 0 (runWebhook s id vars d) := by
  refine .lift_bind fun url => saves_needs.bind fun _ => .bind ?_ fun answer => ?_
  · refine Saves.tryCatch ?_ fun _ => (still_throw _).saves
    exact .lift_bind fun _ => .lift_bind fun _ => saves_consult rfl
  · exact .lift_bind fun _ => (still_pure _).saves

theorem runContractSearch_saves (contact : Contact) (d : Flow.ContractSearch)
    (answer : Option String) : Saves 0 (runContractSearch s id vars contact d answer) := by
  refine .lift_bind fun message => ?_
  split
  · exact (still_lift _).saves
  · refine .lift_bind fun value => .bind ?_ fun _ => (still_lift _).saves
    unfold findContracts
    split
    · exact (still_pure _).saves
    · exact saves_needs.bind fun _ => (saves_consult rfl).tryCatch fun _ => (still_throw _).saves

theorem runClientTag_saves (d : Flow.ClientTag) : Saves 0 (runClientTag s id vars d) := by
  have hrecorded (contract : Value) : Saves 0 (recordedType s contract) := by
    refine .bind (Saves.tryCatch ?_ fun _ => (still_pure _).saves) fun _ => (still_pure _).saves
    exact .lift_bind fun _ => saves_consult rfl
  have htype : Saves 0 (clientTypeOf s vars d) := by
    unfold clientTypeOf
    dsimp only
    split
    · exact .lift_bind fun _ => (still_pure _).saves
    · split
      · exact hrecorded _
      · exact (still_pure _).saves
  unfold runClientTag
  dsimp only
  split
  · exact htype.bind fun _ => .lift_bind fun _ => (still_pure _).saves
  · split
    · exact .lift_bind fun _ => .bind (still_pure _).saves fun _ => .lift_bind fun _ =>
        (still_pure _).saves
    · exact .bind (still_pure _).saves fun _ => .lift_bind fun _ => (still_pure _).saves

/-! ### Lead captures -/

/-- To keep a lead is to save it once. -/
theorem keepLead_saves (d : Flow.LeadCapture) (captured : Fields) :
    Saves 1 (keepLead s vars d captured) := by
  have hsend : Saves 0 (if (d.sendToWebhook && d.webhookUrl != "") = true then do
      s.consult (.sendLead (← Template.fill d.webhookUrl vars) captured d.leadSource d.autoTags)
      else pure ()) := by
    exact .ite (.lift_bind fun _ => saves_consult rfl) (still_pure _).saves
  have hsave : Saves 1
      (s.consult (.saveLead d.databaseTable captured d.leadSource d.autoTags)) :=
    ⟨0, rfl, fun _ => trivial⟩
  unfold keepLead
  dsimp only
  split
  · refine saves_needs.bind fun _ => ?_
    split
    · exact hsave.bind_none fun _ => hsend
    · exact Program.AsksAtMost.mono hsend (Nat.zero_le 1)
  · split
    · exact hsave.bind_none fun _ => hsend
    · exact Program.AsksAtMost.mono hsend (Nat.zero_le 1)

theorem isKnown_saves (d : Flow.LeadCapture) (captured : Fields) :
    Saves 0 (isKnown s d captured) := by
  unfold isKnown
  dsimp only
  exact .ite (saves_needs.bind fun _ => saves_consult rfl) (still_pure false).saves

/-- A lead that is known is not saved. -/
theorem leadKnown_saves (d : Flow.LeadCapture) (captured : Fields) :
    Saves 0 (leadKnown s id vars d captured) :=
  .lift_bind fun _ => .lift_bind fun _ => (still_pure _).saves

/-- At the end of a capture at most one lead is saved. -/
theorem finishLead_saves (d : Flow.LeadCapture) (captured : Fields) :
    Saves 1 (finishLead s id vars d captured) := by
  have hsettle : Saves 1 (settleLead s id vars d captured) := by
    refine (isKnown_saves d captured).bind fun known => ?_
    cases known with
    | true => exact .bind (leadKnown_saves d captured) fun _ => (still_pure _).saves
    | false => exact (keepLead_saves d captured).bind_none fun _ => (still_pure _).saves
  refine Saves.bind_none (.tryCatch ?_ fun _ => (still_pure _).saves) fun settled => ?_
  · exact hsettle.bind_none fun _ => (still_pure _).saves
  · rcases settled with f | known | known
    · exact (still_lift _).saves
    · exact (still_lift _).saves
    · exact (still_pure _).saves

/-- The action asks nothing of anyone, or it settles the lead. -/
def Settling (s : Setting) (id : String) (vars : Fields) (d : Flow.LeadCapture)
    (a : Action Effect) :
    Prop :=
  Still a ∨ ∃ captured, a = finishLead s id vars d captured

/-- What may fail before a lead is settled settles nothing. -/
theorem Settling.lift_bind {d : Flow.LeadCapture} {r : Except Fault α} {g : α → Action Effect}
    (hg : ∀ x, Settling s id vars d (g x)) : Settling s id vars d (liftM r >>= g) := by
  cases r with
  | ok x => exact hg x
  | error f => exact .inl trivial

/-- **A lead capture** asks nothing of anyone until all fields are answered; then it settles the
lead. -/
theorem runLeadCapture_settling (d : Flow.LeadCapture) (answer : Option String) :
    Settling s id vars d (runLeadCapture s id vars d answer) := by
  unfold runLeadCapture
  split
  · exact .inl (still_throw _)
  · dsimp only
    split
    · exact .inl (still_lift _)
    · split
      · exact .inl (still_throw _)
      · refine .lift_bind fun field => .lift_bind fun question => ?_
        cases answer with
        | none => exact .inl (still_pure _)
        | some a =>
            unfold answerLead
            dsimp only
            split
            · exact .inl (still_pure _)
            · refine .lift_bind fun captured => ?_
              split
              · exact .inl ((still_lift _).bind fun _ => (still_lift _).bind fun _ => still_pure _)
              · exact .inr ⟨_, rfl⟩

/-- A lead capture saves at most one lead in a step. -/
theorem runLeadCapture_saves (d : Flow.LeadCapture) (answer : Option String) :
    Saves 1 (runLeadCapture s id vars d answer) := by
  rcases runLeadCapture_settling d answer with h | ⟨captured, h⟩
  · exact h.saves
  · rw [h]
    exact finishLead_saves d captured

/-- A lead capture that is handed no answer asks nothing of anyone. -/
theorem runLeadCapture_still (d : Flow.LeadCapture) : Still (runLeadCapture s id vars d none) := by
  unfold runLeadCapture
  split
  · exact still_throw _
  · dsimp only
    split
    · exact still_lift _
    · split
      · exact (still_throw _).bind fun _ => (still_lift _).bind fun _ =>
            (still_lift _).bind fun _ =>
          still_pure _
      · exact (still_lift _).bind fun _ => (still_lift _).bind fun _ => still_pure _

/-! ### Runs of an action -/

/-- The exchanges lead the action to the value. -/
def Reaches (a : Action α) (log : List (Program.Exchange Op Op.Reply)) (x : α) : Prop :=
  Program.Comes a.run log (Except.ok x : Except Fault α)

variable {log : List (Program.Exchange Op Op.Reply)}

theorem Reaches.gives {a : Action α} {x : α} (h : Reaches a log x) : Gives a x := h.ends

/-- An action that asks for nothing leaves an empty log. -/
theorem Reaches.still {a : Action α} {x : α} (h : Reaches a log x) (hs : Still a) : log = [] :=
  h.quiet hs

/-- The log of a chain is the log of its first part and then that of the second. -/
theorem reaches_bind {a : Action α} {g : α → Action β} {y : β} :
    Reaches (a >>= g) log y ↔ ∃ log₁ log₂ x, log = log₁ ++ log₂ ∧ Reaches a log₁ x ∧
      Reaches (g x) log₂ y := by
  refine Program.comes_bind_iff.trans ⟨?_, ?_⟩
  · rintro ⟨log₁, log₂, r, rfl, hr, h⟩
    cases r with
    | ok x => exact ⟨log₁, log₂, x, rfl, hr, h⟩
    | error f => cases (Program.comes_done_iff.mp h).2
  · rintro ⟨log₁, log₂, x, rfl, hx, h⟩
    exact ⟨log₁, log₂, .ok x, rfl, hx, h⟩

theorem reaches_pure {x y : α} : Reaches (pure x) log y ↔ log = [] ∧ y = x :=
  Program.comes_done_iff.trans (and_congr_right' ⟨Except.ok.inj, congrArg Except.ok⟩)

/-- What is computed first has no exchanges. -/
theorem reaches_lift_bind {r : Except Fault α} {g : α → Action β} {y : β} :
    Reaches (liftM r >>= g) log y ↔ ∃ x, r = .ok x ∧ Reaches (g x) log y := by
  cases r with
  | ok x =>
      refine ⟨fun h => ⟨x, rfl, h⟩, ?_⟩
      rintro ⟨x', ⟨⟩, h⟩
      exact h
  | error f =>
      refine ⟨fun h => ?_, fun ⟨_, h, _⟩ => nomatch h⟩
      cases (Program.comes_done_iff.mp h).2

/-- The request was answered. -/
def answered (s : Setting) (c : Consultation) (x : c.Answer) : Program.Exchange Op Op.Reply :=
  ⟨.consult c s.policy.callBound, (.ok x : Except Fault c.Answer)⟩

/-- Who consults someone has asked for that and was answered. -/
theorem reaches_consult {c : Consultation} {x : c.Answer} (h : Reaches (s.consult c) log x) :
    log = [answered s c x] := by
  obtain ⟨r, rest, rfl, h'⟩ := Program.comes_request_iff.mp h
  obtain ⟨rfl, rfl⟩ := Program.comes_done_iff.mp h'
  rfl

/-- An action in two parts breaks off in the first, or goes on from what it reaches. -/
theorem comes_bind {x : Action α} {g : α → Action β} {r : Except Fault β}
    (h : Program.Comes (x >>= g).run log r) :
    (∃ f, r = .error f ∧ Program.Comes x.run log (.error f)) ∨
      ∃ log₁ log₂ y, log = log₁ ++ log₂ ∧ Reaches x log₁ y ∧ Program.Comes (g y).run log₂ r := by
  obtain ⟨log₁, log₂, first, rfl, hx, h⟩ := Program.comes_bind_iff.mp h
  cases first with
  | ok y => exact .inr ⟨log₁, log₂, y, rfl, hx, h⟩
  | error f =>
      obtain ⟨rfl, rfl⟩ := Program.comes_done_iff.mp h
      rw [List.append_nil]
      exact .inl ⟨f, rfl, hx⟩

/-- What has a value to fall back on never breaks off. -/
theorem comes_tryCatch_pure {x : Action α} {y : α} {r : Except Fault α}
    (h : Program.Comes (tryCatch x fun _ => pure y).run log r) :
    ∃ z, r = .ok z ∧ (Reaches x log z ∨ z = y ∧ ∃ f, Program.Comes x.run log (.error f)) := by
  obtain ⟨log₁, log₂, first, rfl, hx, h⟩ := Program.comes_bind_iff.mp h
  cases first with
  | ok z =>
      obtain ⟨rfl, rfl⟩ := Program.comes_done_iff.mp h
      rw [List.append_nil]
      exact ⟨z, rfl, .inl hx⟩
  | error f =>
      obtain ⟨rfl, rfl⟩ := Program.comes_done_iff.mp h
      rw [List.append_nil]
      exact ⟨y, rfl, .inr ⟨rfl, f, hx⟩⟩

/-- A request and what is computed of its answer make one exchange. -/
theorem comes_consult_lift {c : Consultation} {g : c.Answer → Except Fault α} {r : Except Fault α}
    (h : Program.Comes (s.consult c >>= fun v => liftM (g v)).run log r) :
    ∃ reply : Except Fault c.Answer, log = [⟨.consult c s.policy.callBound, reply⟩] ∧
      r = reply >>= g := by
  obtain ⟨reply, rest, rfl, hrest⟩ := Program.comes_request_iff.mp h
  have hr : rest = [] ∧ r = (reply : Except Fault c.Answer) >>= g := by
    change Except Fault c.Answer at reply
    cases reply with
    | ok v => exact Program.comes_done_iff.mp hrest
    | error f => exact Program.comes_done_iff.mp hrest
  obtain ⟨rfl, rfl⟩ := hr
  exact ⟨reply, rfl, rfl⟩

/-! ### What an action asks for -/

/-- What may fail asks for nothing, so that a chain asks for what its second part does. -/
theorem asksOnly_lift_bind {may : Op → Prop} {r : Except Fault α} {g : α → Action β}
    (hg : ∀ x, r = .ok x → Program.AsksOnly may (g x).run) :
    Program.AsksOnly may (liftM r >>= g).run := by
  cases r with
  | ok x => exact hg x rfl
  | error f => trivial

/-- A chain asks for what its parts do. -/
theorem asksOnly_bind {may : Op → Prop} {a : Action α} {g : α → Action β}
    (h : Program.AsksOnly may a.run) (hg : ∀ x, Program.AsksOnly may (g x).run) :
    Program.AsksOnly may (a >>= g).run := by
  refine Program.AsksOnly.bind h fun r => ?_
  cases r with
  | ok x => exact hg x
  | error f => trivial

theorem asksOnly_needs {may : Op → Prop} {present : Bool} {otherwise : String} :
    Program.AsksOnly may (needs present otherwise).run := by
  unfold needs
  split <;> trivial

/-- A request is asked for, and what has a value to fall back on asks for nothing more. -/
theorem asksOnly_tryCatch_pure {may : Op → Prop} {x : Action α} {y : α}
    (h : Program.AsksOnly may x.run) :
    Program.AsksOnly may (tryCatch x fun _ => pure y).run :=
  Program.AsksOnly.bind h fun r => by cases r <;> trivial

/-- **A lead capture that waits has asked nothing of anyone**: a lead that is settled leaves the
node. -/
theorem lead_unasked {d : Flow.LeadCapture} {answer : Option String} {e : Effect}
    (h : Reaches (runLeadCapture s id vars d answer) log e) (hw : e.course = .wait) : log = [] := by
  rcases runLeadCapture_settling d answer with hs | ⟨captured, hs⟩
  · exact h.still hs
  · rw [hs] at h
    exact absurd hw (finishLead_moves d _ e h.gives)

/-! ### Steps -/

variable {n : Flow.Node} {session : Session} {answer : Option String}

/-- The exchanges that lead a step to an effect lead its action to it. -/
theorem run_reaches {e : Effect} (h : (run s n session answer).Comes log (.done e)) :
    Reaches (effectOf s n session (givenAnswer answer)) log e := by
  obtain ⟨log₁, log₂, r, rfl, hr, h⟩ := Program.comes_bind_iff.mp h
  obtain ⟨rfl, ho⟩ := Program.comes_done_iff.mp h
  rw [List.append_nil]
  cases r with
  | ok e' =>
      cases ho
      exact hr
  | error f => cases ho

/-- A node is run with as many leads saved as its effect saves. -/
theorem run_asksAtMost (h : Saves k (effectOf s n session (givenAnswer answer))) :
    (run s n session answer).AsksAtMost Op.savesLead k :=
  Program.AsksAtMost.bind (m := 0) h fun _ => trivial

/-- A node that is no lead capture saves no lead. -/
theorem effectOf_saves (h : ∀ d, n.block ≠ .leadCapture d) :
    Saves 0 (effectOf s n session answer) := by
  unfold effectOf
  cases hn : n.block with
  | leadCapture d => exact absurd hn (h d)
  | assistant d => exact runAssistant_saves d answer
  | welcome d => exact runWelcome_saves d answer
  | webhook d => exact runWebhook_saves d
  | delay d => exact runDelay_saves d
  | contractSearch d => exact runContractSearch_saves session.contact d answer
  | clientTag d => exact runClientTag_saves d
  | unknown kind raw => exact (still_throw _).saves
  | _ => exact (still_lift _).saves

/-- **A step saves a lead at most once.** -/
theorem run_saves_once : (run s n session answer).AsksAtMost Op.savesLead 1 := by
  refine run_asksAtMost ?_
  by_cases h : ∃ d, n.block = .leadCapture d
  · obtain ⟨d, hd⟩ := h
    unfold effectOf
    rw [hd]
    exact runLeadCapture_saves d _
  · exact Program.AsksAtMost.mono (effectOf_saves (not_exists.mp h)) (Nat.zero_le 1)

/-- **A step that is handed no answer saves no lead.** -/
theorem run_saves_nothing : (run s n session none).AsksAtMost Op.savesLead 0 := by
  refine run_asksAtMost ?_
  by_cases h : ∃ d, n.block = .leadCapture d
  · obtain ⟨d, hd⟩ := h
    unfold effectOf
    rw [hd]
    exact (runLeadCapture_still d).saves
  · exact effectOf_saves (not_exists.mp h)

/-- The outcome does not keep the session at its node. -/
def Outcome.Moves (o : Outcome) : Prop := ∀ e, o = .done e → e.course ≠ .wait

/-- **A step that waits has saved no lead.** -/
theorem unsaved_of_waits {e : Effect} (h : (run s n session answer).Comes log (.done e))
    (hw : e.course = .wait) : log.countP (fun x => x.op.savesLead) = 0 := by
  by_cases hn : ∃ d, n.block = .leadCapture d
  · obtain ⟨d, hd⟩ := hn
    have hr := run_reaches h
    unfold effectOf at hr
    rw [hd] at hr
    rw [lead_unasked hr hw]
    rfl
  · exact Nat.le_zero.mp ((run_asksAtMost (effectOf_saves (not_exists.mp hn))).count_le h)

end Parley.Step
