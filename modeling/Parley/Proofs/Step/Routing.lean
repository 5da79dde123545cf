import Parley.Proofs.Program
import Parley.Proofs.Flow.Routes
import Parley.Proofs.Step.Courses

/-!
# How a node is left

An effect that goes on tells in its metadata by which handle the node is left (`Effect.handle`), and
leads to the successor of the node for that handle: `Leaves`, which holds of every effect a node may
give (`leaves_of_ends`).

A step under strict routing is compared with the same step under lenient routing, as programs
abreast: both ask the same of the collaborators.  `Routed` is how their results compare where the
router alone makes the difference, with one lemma for each kind of node.  A lead capture differs in
one more way.  It looks for the way out of a known lead while it is still ready for failures of the
back office, so there a handle that misses is taken for such a failure (`Compares.mistaken`).
-/

namespace Parley.Step

open Template (fill)

/-- The setting with strict or lenient routing. -/
def Setting.routing (s : Setting) (strict : Bool) : Setting :=
  { s with policy := { s.policy with strictRouting := strict } }

/-- A setting routes as its policy says. -/
theorem Setting.routing_self (s : Setting) : s.routing s.policy.strictRouting = s := rfl

/-- The conversation stops at the node for now. -/
def Course.Stops (c : Course) : Prop := c = .wait ∨ ∃ h, c = .handoff h

/-- The course goes on to the successor of the node for the handle. -/
def Leads (f : Flow) (id : String) (e : Effect) : Prop :=
  e.course = .proceed ((f.successor? id e.handle).map (·.id))

variable {α : Type} {s : Setting} {f : Flow} {id : String} {vars : Fields}

/-! ### The two results of a step -/

/-- A result under lenient routing and under strict routing: strict routing refuses just what
misses. -/
inductive Routed (f : Flow) (id : String) : Except Fault Effect → Except Fault Effect → Prop where
  | fault (x : Fault) : Routed f id (.error x) (.error x)
  | stops {e : Effect} (hc : e.course.Stops) : Routed f id (.ok e) (.ok e)
  | leads {e : Effect} (hc : Leads f id e) (hm : ¬ f.Misses id e.handle) :
      Routed f id (.ok e) (.ok e)
  | refused {e : Effect} (hc : Leads f id e) (hm : f.Misses id e.handle) :
      Routed f id (.ok e) (.error (.noRoute id e.handle))

/-- The way on under lenient and under strict routing. -/
theorem onward_eq (s : Setting) (id handle : String) (strict : Bool) :
    (s.routing strict).onward id handle =
      if strict = true ∧ s.flow.Misses id handle then .error (.noRoute id handle)
      else .ok (.proceed ((s.flow.successor? id handle).map (·.id))) := by
  have hnext : (s.routing strict).onward id handle =
      ((s.flow.route id handle strict).map (·.1)).map fun m => .proceed (m.map (·.id)) := by
    unfold Setting.onward Setting.next
    change Except.map _ (s.flow.route id handle strict >>= _) = _
    cases s.flow.route id handle strict <;> rfl
  rw [hnext, Flow.route_eq]
  split <;> rfl

namespace Routed

/-- Results compare when they do after a common first part. -/
theorem bind {r : Except Fault α} {g g' : α → Except Fault Effect}
    (h : ∀ x, Routed f id (g x) (g' x)) : Routed f id (r >>= g) (r >>= g') := by
  cases r with
  | ok x => exact h x
  | error x => exact .fault x

/-- Who waits is not routed. -/
theorem waits {e : Effect} (hc : e.course = .wait) :
    Routed f id (pure e : Except Fault Effect) (pure e) := .stops (.inl hc)

/-- An effect that goes on by a handle. -/
theorem onward {handle : String} {g : Course → Effect} (hc : ∀ c, (g c).course = c)
    (hh : ∀ c, (g c).handle = handle) :
    Routed s.flow id ((s.routing false).onward id handle >>= fun c => pure (g c))
      ((s.routing true).onward id handle >>= fun c => pure (g c)) := by
  rw [onward_eq, onward_eq, if_neg nofun]
  generalize hd : Course.proceed ((s.flow.successor? id handle).map (·.id)) = c
  have hleads : Leads s.flow id (g c) := by rw [Leads, hc, hh, hd]
  by_cases hm : s.flow.Misses id handle
  · rw [if_pos ⟨rfl, hm⟩, ← hh c]
    exact .refused hleads (by rwa [hh])
  · rw [if_neg fun h => hm h.2]
    exact .leads hleads (by rwa [hh])

end Routed

/-! ### Steps under both rules -/

/-- What is asked first is asked under both rules alike, and its faults are the same. -/
theorem abreast_bind {β : Type} {R : Except Fault β → Except Fault β → Prop}
    (hR : ∀ x, R (.error x) (.error x)) (a : Action α) {g g' : α → Action β}
    (h : ∀ x, Program.Abreast R (g x).run (g' x).run) :
    Program.Abreast R (a >>= g).run (a >>= g').run := by
  refine Program.Abreast.bind (Program.abreast_self (fun _ => rfl) a.run) ?_
  intro r _ hr
  subst hr
  cases r with
  | ok x => exact h x
  | error x => exact .done (hR x)

/-- Two actions that ask for the same and end as lenient and strict routing end. -/
def Abreast (f : Flow) (id : String) (a a' : Action Effect) : Prop :=
  Program.Abreast (Routed f id) a.run a'.run

namespace Abreast

/-- Actions are abreast when they are after a common first part. -/
theorem bind {a : Action α} {g g' : α → Action Effect} (h : ∀ x, Abreast f id (g x) (g' x)) :
    Abreast f id (a >>= g) (a >>= g') := abreast_bind .fault a h

/-- What may fail is abreast when its results compare. -/
theorem lift {r r' : Except Fault Effect} (h : Routed f id r r') :
    Abreast f id (liftM r) (liftM r') := .done h

theorem throw (x : Fault) : Abreast f id (throw x) (throw x) := .done (.fault x)

theorem ite {c : Prop} [Decidable c] {a a' b b' : Action Effect} (h : Abreast f id a a')
    (h' : Abreast f id b b') : Abreast f id (if c then a else b) (if c then a' else b') := by
  split
  · exact h
  · exact h'

theorem waits {e : Effect} (hc : e.course = .wait) : Abreast f id (pure e) (pure e) :=
  .done (.waits hc)

theorem onward {handle : String} {g : Course → Effect} (hc : ∀ c, (g c).course = c)
    (hh : ∀ c, (g c).handle = handle) :
    Abreast s.flow id (liftM ((s.routing false).onward id handle) >>= fun c => pure (g c))
      (liftM ((s.routing true).onward id handle) >>= fun c => pure (g c)) := by
  have hr : Routed s.flow id ((s.routing false).onward id handle >>= fun c => pure (g c))
      ((s.routing true).onward id handle >>= fun c => pure (g c)) := .onward hc hh
  cases hl : (s.routing false).onward id handle <;> cases ht : (s.routing true).onward id handle <;>
    rw [hl, ht] at hr <;> exact .done hr

end Abreast

/-! ### The kinds of nodes -/

theorem runStart_abreast :
    Routed s.flow id (runStart (s.routing false) id) (runStart (s.routing true) id) :=
  .onward (fun _ => rfl) fun _ => rfl

theorem runMessage_abreast (d : Flow.Message) :
    Routed s.flow id (runMessage (s.routing false) id vars d)
      (runMessage (s.routing true) id vars d) := by
  refine .bind fun text => ?_
  dsimp only
  split
  · exact .onward (fun _ => rfl) fun _ => rfl
  · exact .bind fun url => .onward (fun _ => rfl) fun _ => rfl

theorem runInput_abreast (d : Flow.Question) (answer : Option String) :
    Routed s.flow id (runInput (s.routing false) id vars d answer)
      (runInput (s.routing true) id vars d answer) := by
  cases answer with
  | none => exact .bind fun question => .waits rfl
  | some answer =>
      refine .bind fun valid => ?_
      cases valid with
      | true => exact .onward (fun _ => rfl) fun _ => rfl
      | false => exact .bind fun said => .waits rfl

theorem runMenu_abreast (d : Flow.Menu) (answer : Option String) :
    Routed s.flow id (runMenu (s.routing false) id vars d answer)
      (runMenu (s.routing true) id vars d answer) := by
  refine .bind fun title => ?_
  cases answer with
  | none => exact .waits rfl
  | some answer =>
      refine .bind fun choice => ?_
      cases choice with
      | none => exact .bind fun said => .waits rfl
      | some c => exact .onward (fun _ => rfl) fun _ => rfl

theorem runCondition_abreast (d : Flow.Branch) :
    Routed s.flow id (runCondition (s.routing false) id vars d)
      (runCondition (s.routing true) id vars d) :=
  .bind fun _ => .onward (fun _ => rfl) fun _ => rfl

/-- A hand-off is not routed. -/
theorem runHandoff_abreast (d : Flow.Transfer) :
    Routed f id (runHandoff id vars d) (runHandoff id vars d) :=
  .bind fun _ => .bind fun _ => .stops (.inr ⟨_, rfl⟩)

theorem runDelay_abreast (d : Flow.Delay) :
    Abreast s.flow id (runDelay (s.routing false) id d) (runDelay (s.routing true) id d) := by
  unfold runDelay
  change Abreast s.flow id (do
      if Binary64.zero.lt (s.policy.delay d.delaySeconds) = true then _
      _) (do
      if Binary64.zero.lt (s.policy.delay d.delaySeconds) = true then _
      _)
  split
  · exact .bind fun _ => .onward (fun _ => rfl) fun _ => rfl
  · exact .onward (fun _ => rfl) fun _ => rfl

theorem runTag_abreast (d : Flow.Tag) :
    Routed s.flow id (runTag (s.routing false) id vars d) (runTag (s.routing true) id vars d) := by
  refine .bind fun name => ?_
  dsimp only
  split
  · exact .fault _
  · exact .bind fun _ => .onward (fun _ => rfl) fun _ => rfl

theorem runAssignment_abreast (d : Flow.Assignment) :
    Routed s.flow id (runAssignment (s.routing false) id vars d)
      (runAssignment (s.routing true) id vars d) := by
  unfold runAssignment
  split
  · split <;> exact .bind fun _ => .onward (fun _ => rfl) fun _ => rfl
  · exact .bind fun _ => .onward (fun _ => rfl) fun _ => rfl
  · exact .bind fun _ => .onward (fun _ => rfl) fun _ => rfl

theorem runAssistant_abreast (d : Flow.Assistant) (answer : Option String) :
    Abreast s.flow id (runAssistant (s.routing false) id vars d answer)
      (runAssistant (s.routing true) id vars d answer) := by
  refine .bind fun prompt => .bind fun context => ?_
  cases answer <;> refine .bind fun message => .bind fun reply => ?_
  all_goals
    dsimp only
    split <;> exact .bind fun _ => .onward (fun _ => rfl) fun _ => rfl

theorem runWebhook_abreast (d : Flow.Webhook) :
    Abreast s.flow id (runWebhook (s.routing false) id vars d)
      (runWebhook (s.routing true) id vars d) :=
  .bind fun _ => .bind fun _ => .bind fun _ => .onward (fun _ => rfl) fun _ => rfl

theorem runClientTag_abreast (d : Flow.ClientTag) :
    Abreast s.flow id (runClientTag (s.routing false) id vars d)
      (runClientTag (s.routing true) id vars d) := by
  unfold runClientTag
  dsimp only
  split
  · exact .bind fun _ => .onward (fun _ => rfl) fun _ => rfl
  · split <;> exact .bind fun _ => .onward (fun _ => rfl) fun _ => rfl

theorem answersItself_abreast (d : Flow.Welcome) (kind : Media.Kind) (processed : String)
    (found : Named) :
    Abreast s.flow id (answersItself (s.routing false) id vars d kind processed found)
      (answersItself (s.routing true) id vars d kind processed found) := by
  refine .bind fun reply => ?_
  dsimp only
  split <;> exact .bind fun _ => .bind fun _ => .onward (fun _ => rfl) fun _ => rfl

/-- Media are read alike under both rules. -/
theorem readMediaOr_routing (s : Setting) (strict : Bool) (d : Flow.Welcome) (payload : String)
    (kind : Media.Kind) :
    readMediaOr (s.routing strict) d payload kind = readMediaOr s d payload kind := by
  unfold readMediaOr
  cases kind <;> rfl

theorem runWelcome_abreast (d : Flow.Welcome) (answer : Option String) :
    Abreast s.flow id (runWelcome (s.routing false) id vars d answer)
      (runWelcome (s.routing true) id vars d answer) := by
  cases answer with
  | none => exact .bind fun greeting => .waits rfl
  | some answer =>
      unfold runWelcome
      dsimp only
      rw [readMediaOr_routing, readMediaOr_routing]
      refine .bind fun read => .bind fun processed => .ite ?_ ?_
      · exact .lift (.bind fun said => .bind fun extracted => .stops (.inr ⟨_, rfl⟩))
      · split
        · exact .lift (.bind fun extracted => .onward (fun _ => rfl) fun _ => rfl)
        · exact answersItself_abreast d _ processed _

theorem contractFound_abreast (d : Flow.ContractSearch) (contract : Value) (count : Nat) :
    Routed s.flow id (contractFound (s.routing false) id d contract count)
      (contractFound (s.routing true) id d contract count) :=
  .bind fun _ => .onward (fun _ => rfl) fun _ => rfl

theorem chooseContract_abreast (d : Flow.ContractSearch) (message : String) (waiting : Value)
    (answer : Option String) :
    Routed s.flow id (chooseContract (s.routing false) id d message waiting answer)
      (chooseContract (s.routing true) id d message waiting answer) := by
  rw [chooseContract_eq, chooseContract_eq]
  refine .bind fun chosen => ?_
  cases chosen with
  | none => exact .bind fun list => .waits rfl
  | some i => exact .bind fun contract => .bind fun count => contractFound_abreast d contract count

theorem settleSearch_abreast (d : Flow.ContractSearch) (message : String) (contracts : Value) :
    Routed s.flow id (settleSearch (s.routing false) id vars d message contracts)
      (settleSearch (s.routing true) id vars d message contracts) := by
  unfold settleSearch
  split
  · exact .bind fun said => .onward (fun _ => rfl) fun _ => rfl
  · refine .bind fun count => ?_
    split
    · exact .bind fun list => .waits rfl
    · exact .bind fun contract => contractFound_abreast d contract count

theorem runContractSearch_abreast (contact : Contact) (d : Flow.ContractSearch)
    (answer : Option String) :
    Abreast s.flow id (runContractSearch (s.routing false) id vars contact d answer)
      (runContractSearch (s.routing true) id vars contact d answer) := by
  refine .bind fun message => ?_
  split
  · exact .lift (chooseContract_abreast d message _ answer)
  · exact .bind fun value => .bind fun contracts => .lift (settleSearch_abreast d message contracts)

/-! ### Lead captures -/

/-- What comes of settling a lead under both rules: a known lead whose way out misses is a fault
under strict routing. -/
inductive Settled (f : Flow) (id : String) :
    Except Fault (Option Effect) → Except Fault (Option Effect) → Prop where
  | fault (x : Fault) : Settled f id (.error x) (.error x)
  | kept : Settled f id (.ok none) (.ok none)
  | known {e : Effect} (hc : Leads f id e) (hm : ¬ f.Misses id e.handle) :
      Settled f id (.ok (some e)) (.ok (some e))
  | mistaken {e : Effect} (hc : Leads f id e) (hh : e.handle = "duplicate")
      (hm : f.Misses id "duplicate") :
      Settled f id (.ok (some e)) (.error (.noRoute id "duplicate"))

/-- A lead is saved or refused before anything is routed. -/
theorem settleLead_abreast (d : Flow.LeadCapture) (captured : Fields) :
    Program.Abreast (Settled s.flow id) (settleLead (s.routing false) id vars d captured).run
      (settleLead (s.routing true) id vars d captured).run := by
  refine abreast_bind .fault (isKnown s d captured) fun known => ?_
  cases known with
  | false => exact abreast_bind .fault (keepLead s vars d captured) fun _ => .done .kept
  | true =>
      unfold leadKnown
      rw [if_pos rfl, if_pos rfl, onward_eq, onward_eq, if_neg nofun]
      cases fill d.duplicateMessage vars with
      | error x => exact .done (.fault x)
      | ok said =>
          by_cases hm : s.flow.Misses id "duplicate"
          · rw [if_pos ⟨rfl, hm⟩]
            exact .done (.mistaken rfl rfl hm)
          · rw [if_neg fun h => hm h.2]
            exact .done (.known rfl hm)

/-- A lead is settled first.  Whatever fails in that leaves by the handle for errors. -/
theorem finishLead_run (s : Setting) (id : String) (vars : Fields) (d : Flow.LeadCapture)
    (captured : Fields) :
    (finishLead s id vars d captured).run =
      (settleLead s id vars d captured).run.bind fun
        | .error x => .done (leadFailed s id vars d captured x)
        | .ok (some e) => .done (.ok e)
        | .ok none => .done (leadSaved s id vars d captured) := by
  change (((settleLead s id vars d captured).run.bind _).bind _).bind _ = _
  rw [Program.bind_assoc, Program.bind_assoc]
  refine congrArg (Program.bind _) (funext fun r => ?_)
  rcases r with x | known | e <;> rfl

theorem leadFailed_abreast (d : Flow.LeadCapture) (captured : Fields) (x : Fault) :
    Routed s.flow id (leadFailed (s.routing false) id vars d captured x)
      (leadFailed (s.routing true) id vars d captured x) :=
  .bind fun _ => .onward (fun _ => rfl) fun _ => rfl

theorem leadSaved_abreast (d : Flow.LeadCapture) (captured : Fields) :
    Routed s.flow id (leadSaved (s.routing false) id vars d captured)
      (leadSaved (s.routing true) id vars d captured) :=
  .bind fun _ => .onward (fun _ => rfl) fun _ => rfl

/-! ### Nodes -/

variable {n : Flow.Node}

/-- The results of a node under lenient and under strict routing. -/
inductive Compares (s : Setting) (n : Flow.Node) (vars : Fields) :
    Except Fault Effect → Except Fault Effect → Prop where
  | routed {r r' : Except Fault Effect} (h : Routed s.flow n.id r r')
      (hd : ∀ d e, n.block = .leadCapture d → r = .ok e → s.flow.Misses n.id e.handle →
        e.handle ≠ "duplicate") : Compares s n vars r r'
  | ends {e : Effect} (hn : IsEnding n) (hc : e.course = .finish) :
      Compares s n vars (.ok e) (.ok e)
  /-- The missing way out of a known lead is taken for a failure of the back office. -/
  | mistaken {d : Flow.LeadCapture} {e : Effect} (captured : Fields) (hn : n.block = .leadCapture d)
      (hc : Leads s.flow n.id e) (hh : e.handle = "duplicate")
        (hm : s.flow.Misses n.id "duplicate") :
      Compares s n vars (.ok e)
        (leadFailed (s.routing true) n.id vars d captured (.noRoute n.id "duplicate"))

/-- A fault that both rules come to compares with itself. -/
theorem Compares.fault (x : Fault) : Compares s n vars (.error x) (.error x) :=
  .routed (.fault x) nofun

/-- Who waits without a handle does so by both rules. -/
theorem Compares.waits {e : Effect} (hc : e.course = .wait) (hh : e.handle = "") :
    Compares s n vars (.ok e) (.ok e) := by
  refine .routed (.waits hc) ?_
  intro d e' _ he hm
  obtain rfl := Except.ok.inj he
  exact absurd (hh ▸ hm) Flow.not_misses_empty

/-- A lead that is settled leaves by the handle `success` or `error`. -/
theorem Compares.settled {r r' : Except Fault Effect} (h : Routed s.flow n.id r r')
    (hh : ∀ e, r = .ok e → e.handle ≠ "duplicate") : Compares s n vars r r' :=
  .routed h fun _ e _ he _ => hh e he

/-- At the end of a capture a handle without an edge is taken for a failure to save. -/
theorem finishLead_compares {d : Flow.LeadCapture} (hn : n.block = .leadCapture d)
    (captured : Fields) :
    Program.Abreast (Compares s n vars) (finishLead (s.routing false) n.id vars d captured).run
      (finishLead (s.routing true) n.id vars d captured).run := by
  rw [finishLead_run, finishLead_run]
  refine (settleLead_abreast d captured).bind ?_
  intro r r' h
  cases h with
  | fault x =>
      refine .done (.settled (leadFailed_abreast d captured x) ?_)
      intro e he
      obtain ⟨said, -, he⟩ := bind_eq_ok.mp he
      obtain ⟨course, -, he⟩ := bind_eq_ok.mp he
      rw [pure_eq_ok.mp he]
      change "error" ≠ "duplicate"
      decide
  | kept =>
      refine .done (.settled (leadSaved_abreast d captured) ?_)
      intro e he
      obtain ⟨said, -, he⟩ := bind_eq_ok.mp he
      obtain ⟨course, -, he⟩ := bind_eq_ok.mp he
      rw [pure_eq_ok.mp he]
      change "success" ≠ "duplicate"
      decide
  | known hc hm =>
      refine .done (.routed (.leads hc hm) ?_)
      intro d e _ he hm'
      obtain rfl := Except.ok.inj he
      exact absurd hm' hm
  | mistaken hc hh hm => exact .done (.mistaken captured hn hc hh hm)

/-- So it is when the last field is answered. -/
theorem answerLead_compares {d : Flow.LeadCapture} (hn : n.block = .leadCapture d)
    (fields : List String) (i : Int) (field question answer : String) :
    Program.Abreast (Compares s n vars)
      (answerLead (s.routing false) n.id vars d fields i field question answer).run
      (answerLead (s.routing true) n.id vars d fields i field question answer).run := by
  unfold answerLead
  dsimp only
  split
  · exact .done (.waits rfl rfl)
  · refine abreast_bind .fault _ fun captured => ?_
    split
    · exact abreast_bind .fault _ fun next => abreast_bind .fault _ fun question =>
        .done (.waits rfl rfl)
    · exact finishLead_compares hn _

/-- And so it is with the node. -/
theorem runLeadCapture_compares {d : Flow.LeadCapture} (hn : n.block = .leadCapture d)
    (answer : Option String) :
    Program.Abreast (Compares s n vars) (runLeadCapture (s.routing false) n.id vars d answer).run
      (runLeadCapture (s.routing true) n.id vars d answer).run := by
  unfold runLeadCapture
  split
  · exact .done (.fault _)
  · next first _ _ =>
    dsimp only
    split
    · unfold beginLead
      cases fill (d.questionFor first) vars with
      | error x => exact .done (.fault x)
      | ok question =>
          cases fill d.introMessage vars with
          | error x => exact .done (.fault x)
          | ok said => exact .done (.waits rfl rfl)
    · split
      · exact .done (.fault _)
      · refine abreast_bind .fault _ fun field => abreast_bind .fault _ fun question => ?_
        cases answer with
        | none => exact .done (.waits rfl rfl)
        | some a => exact answerLead_compares hn _ _ _ _ a

/-- A node that is no lead capture, where the router alone makes the difference. -/
theorem Abreast.compares {a a' : Action Effect} (hn : ∀ d, n.block ≠ .leadCapture d)
    (h : Abreast s.flow n.id a a') : Program.Abreast (Compares s n vars) a.run a'.run :=
  h.mono fun _ _ h => .routed h fun d _ hd => absurd hd (hn d)

/-- **A node under both rules.** -/
theorem effectOf_compares (s : Setting) (n : Flow.Node) (session : Session)
    (answer : Option String) :
    Program.Abreast (Compares s n session.vars)
      (effectOf (s.routing false) n session answer).run
      (effectOf (s.routing true) n session answer).run := by
  -- only a lead capture catches a missing route; every other kind passes it on
  by_cases hlead : ∃ d, n.block = .leadCapture d
  · obtain ⟨d, hd⟩ := hlead
    unfold effectOf
    rw [hd]
    exact runLeadCapture_compares hd answer
  · have hl : ∀ d, n.block ≠ .leadCapture d := not_exists.mp hlead
    unfold effectOf
    cases hn : n.block with
    | start d => exact (Abreast.lift runStart_abreast).compares hl
    | message d => exact (Abreast.lift (runMessage_abreast d)).compares hl
    | input d => exact (Abreast.lift (runInput_abreast d answer)).compares hl
    | menu d => exact (Abreast.lift (runMenu_abreast d answer)).compares hl
    | condition d => exact (Abreast.lift (runCondition_abreast d)).compares hl
    | assistant d => exact (runAssistant_abreast d answer).compares hl
    | welcome d => exact (runWelcome_abreast d answer).compares hl
    | handoff d => exact (Abreast.lift (runHandoff_abreast d)).compares hl
    | webhook d => exact (runWebhook_abreast d).compares hl
    | delay d => exact (runDelay_abreast d).compares hl
    | tag d => exact (Abreast.lift (runTag_abreast d)).compares hl
    | assignment d => exact (Abreast.lift (runAssignment_abreast d)).compares hl
    | contractSearch d =>
        exact (runContractSearch_abreast session.contact d answer).compares hl
    | clientTag d => exact (runClientTag_abreast d).compares hl
    | leadCapture d => exact absurd hn (hl d)
    | ending d =>
        change Program.Abreast _ (.done (runEnding session.vars d))
          (.done (runEnding session.vars d))
        cases he : runEnding session.vars d with
        | error x => exact .done (.fault x)
        | ok e =>
            obtain ⟨said, -, he⟩ := bind_eq_ok.mp he
            obtain rfl := pure_eq_ok.mp he
            exact .done (.ends ⟨d, hn⟩ rfl)
    | unknown kind raw => exact (Abreast.throw _).compares hl

/-! ### How a node is left -/

/-- How an effect leaves its node. -/
inductive Leaves (f : Flow) (n : Flow.Node) (e : Effect) : Prop where
  | stops (hc : e.course.Stops)
  | ends (hn : IsEnding n) (hc : e.course = .finish)
  | leads (hc : Leads f n.id e)

variable {e : Effect}

/-- What is routed leads to the successor, under strict routing too. -/
theorem Routes.leads (h : Routes s n.id e) : Leads s.flow n.id e := by
  have honward := onward_eq s n.id e.handle s.policy.strictRouting
  rw [s.routing_self, h] at honward
  split at honward
  · cases honward
  · exact Except.ok.inj honward

/-- **How a node is left**, under either rule: it stops the turn, it is an ending, or the
conversation goes on to the successor for the handle of the effect. -/
theorem leaves_of_ends {session : Session} {answer : Option String}
    (h : (run s n session answer).Ends (.done e)) : Leaves s.flow n e := by
  cases allows_of_ends h with
  | waits _ hc => exact .stops (.inl hc)
  | handsOff _ hc => exact .stops (.inr ⟨_, hc⟩)
  | finishes hn hc => exact .ends hn hc
  | routes h => exact .leads h.leads

end Parley.Step
