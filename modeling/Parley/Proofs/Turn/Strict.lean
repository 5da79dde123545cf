import Parley.Proofs.Step.Routing
import Parley.Proofs.Turn.Conversation

/-!
# Strict routing

A turn under strict routing is compared with the same turn under lenient routing: the same session
and message, and the same surroundings, which reply to the one what they reply to the other.

The two turns are one until a node is left by a handle that none of its edges has, where lenient
routing takes the first edge of all (`Stop.Defaults`).  There strict routing refuses the handle and
the turn ends with an error that names the node and the handle.  The exception is the way out of a
lead capture for a lead that is known: what the router says there is taken for a failure of the
back office, and the strict turn goes on by the handle for errors (`Mistakes`).
-/

namespace Parley.Step

variable {s : Setting} {n : Flow.Node} {vars : Fields}

/-- The lead capture takes the handle that misses for a failure of the back office. -/
def Mistakes (n : Flow.Node) (handle : String) : Prop :=
  (∃ d, n.block = .leadCapture d) ∧ handle = "duplicate"

/-- The outcomes of a node under lenient and under strict routing. -/
inductive Outcomes (s : Setting) (n : Flow.Node) (vars : Fields) : Outcome → Outcome → Prop where
  | same {o : Outcome} (h : ∀ e, o = .done e → Leads s.flow n.id e →
      ¬ s.flow.Misses n.id e.handle) :
      Outcomes s n vars o o
  | refused {e : Effect} (hc : Leads s.flow n.id e) (hm : s.flow.Misses n.id e.handle)
      (hn : ¬ Mistakes n e.handle) :
      Outcomes s n vars (.done e) (.failed (Fault.noRoute n.id e.handle).report)
  | mistaken {d : Flow.LeadCapture} {e : Effect} (captured : Fields) (hn : n.block = .leadCapture d)
      (hc : Leads s.flow n.id e) (hh : e.handle = "duplicate")
        (hm : s.flow.Misses n.id "duplicate") :
      Outcomes s n vars (.done e) (.ofResult
        (leadFailed (s.routing true) n.id vars d captured (.noRoute n.id "duplicate")))

/-- An effect that stops the turn does not lead on. -/
theorem Course.Stops.not_leads {f : Flow} {id : String} {e : Effect} (h : e.course.Stops) :
    ¬ Leads f id e := by
  intro hl
  unfold Leads at hl
  rcases h with h | ⟨_, h⟩ <;> cases h.symm.trans hl

theorem Compares.outcomes {r r' : Except Fault Effect} (h : Compares s n vars r r') :
    Outcomes s n vars (.ofResult r) (.ofResult r') := by
  cases h with
  | routed h hd =>
      cases h with
      | fault x => exact .same nofun
      | stops hc =>
          refine .same ?_
          rintro _ ⟨⟩ hl
          exact absurd hl hc.not_leads
      | leads hc hm =>
          refine .same ?_
          rintro _ ⟨⟩ -
          exact hm
      | refused hc hm =>
          refine .refused hc hm ?_
          rintro ⟨⟨d, hn⟩, hh⟩
          exact hd d _ hn rfl hm hh
  | ends hn hc =>
      refine .same ?_
      rintro _ ⟨⟩ hl
      cases hc.symm.trans hl
  | mistaken captured hn hc hh hm => exact .mistaken captured hn hc hh hm

/-- **The outcomes of a node under both rules**, whatever the collaborators answer. -/
theorem run_outcomes (s : Setting) (n : Flow.Node) (session : Session) (answer : Option String) :
    Program.Abreast (Outcomes s n session.vars) (run (s.routing false) n session answer)
      (run (s.routing true) n session answer) :=
  (effectOf_compares s n session (givenAnswer answer)).bind fun _ _ h => .done h.outcomes

end Parley.Step

namespace Parley.Turn

variable {σ : Type}

/-! ### Steps -/

/-- The frame with strict or lenient routing. -/
def Frame.routing (f : Frame) (strict : Bool) :
    Frame := { f with setting := f.setting.routing strict }

/-- Both were interrupted alike, or both came to their values. -/
inductive InStep {α β : Type} (R : α → β → Prop) :
    Except Interruption α → Except Interruption β → Prop
  where
  | cut (i : Interruption) : InStep R (.error i) (.error i)
  | came {a : α} {b : β} (h : R a b) : InStep R (.ok a) (.ok b)

theorem guarded_abreast {α β : Type} {R : α → β → Prop} (deadline : Option Rat)
    {p : Step.StepProgram α} {q : Step.StepProgram β} (h : Program.Abreast R p q) :
    Program.Abreast (InStep R) (guarded deadline p) (guarded deadline q) := by
  induction h with
  | done h => exact .done (.came h)
  | request _ ih =>
      rw [guarded, guarded]
      refine .request ?_
      intro r
      cases r with
      | error i => exact .done (.cut i)
      | ok r => exact ih r

theorem step_abreast (f : Frame) (session : Session) (n : Flow.Node) (answer : Option String) :
    Program.Abreast (InStep (Step.Outcomes f.setting n session.vars))
      (step (f.routing false) session n answer) (step (f.routing true) session n answer) := by
  refine (guarded_abreast f.deadline (Step.run_outcomes f.setting n session answer)).bind ?_
  intro r r' h
  cases h with
  | cut i => exact .done (.cut i)
  | came h =>
      refine .request ?_
      intro left
      cases left with
      | true => exact .done (.cut .abandoned)
      | false => exact .done (.came h)

/-! ### Turns -/

/-- The node was left by a handle that none of its edges has, and so by its default edge. -/
def Stop.Defaults (flow : Flow) (st : Stop) (handle : String) : Prop :=
  flow.Misses st.node.id handle ∧
    ∃ e, st.fate = .over (.done e) ∧ e.handle = handle ∧ Step.Leads flow st.node.id e

/-- The stop with another outcome. -/
def Stop.cameTo (st : Stop) (o : Step.Outcome) : Stop := { st with fate := .over o }

/-- The turn ended with an error of this text. -/
def Ending.Errs (e : Ending) (error : String) : Prop :=
  ∃ s r, e = .finished s r ∧ s.status = .error ∧ r.state = .error ∧ r.error = error

theorem errs_failStep (f : Frame) (w : Walk) (n : Flow.Node) (error : String) :
    (f.failStep w n error).Errs ("node '" ++ n.id ++ "' (" ++ n.kind ++ ") failed: " ++ error) :=
  ⟨_, _, rfl, rfl, rfl, rfl⟩

/-- A turn under lenient routing and under strict routing: the stops, the ending and what the
surroundings are left as. -/
inductive Strictly (s : Step.Setting) :
    (List Stop × Ending) × σ → (List Stop × Ending) × σ → Prop where
  | same {stops : List Stop} (e : Ending) (world : σ)
      (h : ∀ st ∈ stops, ∀ handle, ¬ st.Defaults s.flow handle) :
      Strictly s ((stops, e), world) ((stops, e), world)
  | refused {before rest : List Stop} {st : Stop} {handle : String} {e e' : Ending}
      {world world' : σ}
      (hb : ∀ st ∈ before, ∀ handle, ¬ st.Defaults s.flow handle) (hd : st.Defaults s.flow handle)
      (hn : ¬ Step.Mistakes st.node handle)
      (he : e'.Errs ("node '" ++ st.node.id ++ "' (" ++ st.node.kind ++ ") failed: " ++
        ("node '" ++ st.node.id ++ "' has no edge for handle '" ++ handle ++ "'"))) :
      Strictly s ((before ++ st :: rest, e), world)
        ((before ++ [st.cameTo (.failed (Fault.noRoute st.node.id handle).report)], e'), world')
  | mistaken {before rest rest' : List Stop} {st : Stop} {d : Flow.LeadCapture} (captured : Fields)
      {e e' : Ending} {world world' : σ}
      (hb : ∀ st ∈ before, ∀ handle, ¬ st.Defaults s.flow handle)
      (hd : st.Defaults s.flow "duplicate") (hn : st.node.block = .leadCapture d) :
      Strictly s ((before ++ st :: rest, e), world)
        ((before ++ st.cameTo (.ofResult
          (Step.leadFailed (s.routing true) st.node.id st.session.vars d
          captured (.noRoute st.node.id "duplicate"))) :: rest', e'), world')

/-- One more stop, where both are the same. -/
theorem Strictly.cons {s : Step.Setting} {stops stops' : List Stop} {e e' : Ending}
    {world world' : σ} {first : Stop} (hf : ∀ handle, ¬ first.Defaults s.flow handle)
    (h : Strictly s ((stops, e), world) ((stops', e'), world')) :
    Strictly s ((first :: stops, e), world) ((first :: stops', e'), world') := by
  have hcons {l : List Stop} (hb : ∀ st ∈ l, ∀ handle, ¬ st.Defaults s.flow handle) :
      ∀ st ∈ first :: l, ∀ handle, ¬ st.Defaults s.flow handle := List.forall_mem_cons.mpr ⟨hf, hb⟩
  cases h with
  | same _ _ h => exact .same e world (hcons h)
  | refused hb hd hn he => exact .refused (hcons hb) hd hn he
  | mistaken captured hb hd hn => exact .mistaken captured (hcons hb) hd hn

/-- A stop whose node did not come to an outcome is left by no edge. -/
theorem Strictly.single {s : Step.Setting} (st : Stop) (h : ∀ e, st.fate ≠ .over (.done e))
    (e : Ending) (world : σ) : Strictly s (([st], e), world) (([st], e), world) := by
  refine .same e world ?_
  rintro st' hst handle ⟨-, e', he, -⟩
  obtain rfl := List.mem_singleton.mp hst
  exact h e' he

/-- The tour goes on where a stop led it. -/
def tourOn (f : Frame) (left : Nat) (stop : Stop) :
    Ending ⊕ (Walk × Flow.Node) → TurnProgram (List Stop × Ending)
  | .inl e => .done ([stop], e)
  | .inr (w, m) => (travel f left w m false none).bind fun t => .done (stop :: t.1, t.2)

/-- The stop is the first of what is still to come. -/
theorem play_tourOn (f : Frame) (left : Nat) (stop : Stop) (next : Ending ⊕ (Walk × Flow.Node))
    (replies : (op : Op) → σ → op.Reply × σ) (world : σ) : ∃ rest e world',
      (tourOn f left stop next).play replies world = ((stop :: rest, e), world') := by
  cases next with
  | inl e => exact ⟨_, _, _, rfl⟩
  | inr next =>
      unfold tourOn
      rw [Program.play_bind]
      exact ⟨_, _, _, rfl⟩

/-- After a node that came to these outcomes both turns are one until a handle misses, if they are
so from the next node on. -/
theorem tourOn_strictly {f : Frame} {replies : (op : Op) → σ → op.Reply × σ} {left : Nat}
    (ih : ∀ w m world, Strictly f.setting
      ((travel (f.routing false) left w m false none).play replies world)
      ((travel (f.routing true) left w m false none).play replies world))
    (w : Walk) {n : Flow.Node} (resumed : Bool) {session : Session} (answer : Option String)
    {o o' : Step.Outcome} (h : Step.Outcomes f.setting n session.vars o o') (world : σ) :
    Strictly f.setting
      ((tourOn (f.routing false) left ⟨n, resumed, session, answer, .over o⟩
        (f.settle w n o)).play replies world)
      ((tourOn (f.routing true) left ⟨n, resumed, session, answer, .over o'⟩
        (f.settle w n o')).play replies world) := by
  -- the outcomes are the same, or they part here and the rest does not matter
  cases h with
  | same h =>
      have hst : ∀ handle, ¬ Stop.Defaults f.setting.flow ⟨n, resumed, session, answer, .over o⟩
          handle := by
        rintro handle ⟨hm, e, he, rfl, hl⟩
        cases he
        exact h e rfl hl hm
      cases f.settle w n o with
      | inl e => exact .same e world (List.forall_mem_singleton.mpr hst)
      | inr next =>
          unfold tourOn
          dsimp only
          rw [Program.play_bind, Program.play_bind]
          exact (ih next.1 next.2 world).cons hst
  | @refused e hc hm hn =>
      obtain ⟨rest, e', world', hp⟩ := play_tourOn (f.routing false) left
        ⟨n, resumed, session, answer, .over (.done e)⟩ (f.settle w n (.done e)) replies world
      rw [hp]
      exact .refused (List.forall_mem_nil _) ⟨hm, e, rfl, rfl, hc⟩ hn (errs_failStep ..)
  | @mistaken d e captured hn hc hh hm =>
      obtain ⟨rest, e', world', hp⟩ := play_tourOn (f.routing false) left
        ⟨n, resumed, session, answer, .over (.done e)⟩ (f.settle w n (.done e)) replies world
      generalize hx : Step.Outcome.ofResult _ = o'
      obtain ⟨rest', e'', world'', hp'⟩ := play_tourOn (f.routing true) left
        ⟨n, resumed, session, answer, .over o'⟩ (f.settle w n o') replies world
      rw [hp, hp', ← hx]
      exact .mistaken captured (List.forall_mem_nil _) ⟨hm, e, rfl, hh, hc⟩ hn

/-- **From a node on** both turns are one until a handle misses, by induction on the steps left. -/
theorem travel_strictly (f : Frame) (replies : (op : Op) → σ → op.Reply × σ) (left : Nat) (w : Walk)
    (n : Flow.Node) (resumed : Bool) (answer : Option String) (world : σ) :
    Strictly f.setting ((travel (f.routing false) left w n resumed answer).play replies world)
      ((travel (f.routing true) left w n resumed answer).play replies world) := by
  induction left generalizing w n resumed answer world with
  | zero => exact .same _ _ (List.forall_mem_nil _)
  | succ left ih =>
      rw [travel, travel, Program.play, Program.play]
      cases (replies .enter world).1 with
      | abandoned | cancelled => exact .single ⟨n, resumed, w.session, answer, .spared⟩ nofun _ _
      | go =>
          dsimp only
          rw [Program.play_bind, Program.play_bind]
          obtain ⟨hr, hworld⟩ :=
            (step_abreast f w.session n answer).play replies (replies .enter world).2
          rw [hworld]
          generalize (step (f.routing false) w.session n answer).play replies _ = p at *
          generalize ((step (f.routing true) w.session n answer).play replies _).1 = r' at *
          obtain ⟨r, world⟩ := p
          cases hr with
          | cut i => exact .single ⟨n, resumed, w.session, answer, .cut i⟩ nofun _ _
          | came ho =>
              exact tourOn_strictly (fun w m world => ih w m false none world) w.stepped
                resumed answer
                ho world

/-- The tour of a turn in a frame. -/
def tourIn (f : Frame) (session : Session) (message : Option String) :
    TurnProgram (List Stop × Ending) :=
  if session.flowId ≠ f.setting.flow.id then
    .done ([], f.fail { session := counted f.now session } .error
      ("session belongs to flow '" ++ session.flowId ++ "', not '" ++ f.setting.flow.id ++ "'"))
  else
    let session := begun f.now session message
    match entry f.setting.flow session (Step.givenAnswer message) with
    | .error e => .done ([], f.fail { session := session } .error e)
    | .ok (n, answer, opened) =>
      travel f f.setting.policy.maxSteps.toNat { session := opened } n (takesUp session) answer

theorem tour_eq (setting : Step.Setting) (now : Calendar.Moment) (session : Session)
    (message : Option String) (timeout : Option Binary64) :
    tour setting now session message timeout = .request .time fun start =>
      tourIn ⟨setting, now, deadlineOf setting.policy timeout start⟩ session message := rfl

theorem tourIn_strictly (f : Frame) (replies : (op : Op) → σ → op.Reply × σ) (session : Session)
    (message : Option String) (world : σ) :
    Strictly f.setting ((tourIn (f.routing false) session message).play replies world)
      ((tourIn (f.routing true) session message).play replies world) := by
  have hflow (strict : Bool) : (f.routing strict).setting.flow = f.setting.flow := rfl
  have hnow (strict : Bool) : (f.routing strict).now = f.now := rfl
  unfold tourIn
  rw [hflow, hflow, hnow, hnow]
  by_cases hid : session.flowId = f.setting.flow.id
  · rw [if_neg (not_not.mpr hid), if_neg (not_not.mpr hid)]
    dsimp only
    cases entry f.setting.flow (begun f.now session message) (Step.givenAnswer message) with
    | error e => exact .same _ _ (List.forall_mem_nil _)
    | ok first => exact travel_strictly f replies _ _ _ _ _ world
  · rw [if_pos hid, if_pos hid]
    exact .same _ _ (List.forall_mem_nil _)

/-- **Strict routing refines lenient routing**, but for the way out of a known lead.  A turn is
played under both rules with the same surroundings, whatever they reply.  Either no node of the
lenient turn is left by a handle that none of its edges has, and both turns are the same: their
stops, the session and the result they end with, and what the surroundings are left as.  Or some
node is; at the first such node the strict turn ends with an error that names it and the handle,
except at a lead capture that found the lead known and has no edge for that: there the strict turn
goes on from the outcome that a failure of the back office would have. -/
theorem strict_routing_refines (setting : Step.Setting) (now : Calendar.Moment) (session : Session)
    (message : Option String) (timeout : Option Binary64) (replies : (op : Op) → σ → op.Reply × σ)
    (world : σ) : Strictly setting
      ((tour (setting.routing false) now session message timeout).play replies world)
      ((tour (setting.routing true) now session message timeout).play replies world) := by
  rw [tour_eq, tour_eq]
  exact tourIn_strictly ⟨setting, now, deadlineOf setting.policy timeout (replies .time world).1⟩
    replies session message (replies .time world).2

end Parley.Turn
