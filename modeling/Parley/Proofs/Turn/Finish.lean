import Parley.Proofs.Turn.Bearings

/-!
# Where a turn completes

A node that neither stops the turn nor ends the flow leads to its successor.  The successor travels
as an id, and the empty id stands for no successor: so a node whose id is empty is never gone on to,
and the turn completes before it.

`Continues` is what a tour does after a node that leads to another one, and `Completes` is where a
turn completes.  Under a registered flow these are the only ways on
(`completes_where_the_graph_ends`): where no node has the empty id, a turn completes at an ending or
at a node without edges, and every other node is followed by its successor.
-/

namespace Parley.Turn

variable {f : Frame} {flow : Flow}

/-- The turn ended in the state. -/
def Ending.In (e : Ending) (state : State) : Prop := ∃ s r, e = .finished s r ∧ r.state = state

theorem in_finish {w : Walk} {state state' : State} {error : String} {handoff : Option Handoff} :
    (f.finish w state error handoff).In state' ↔ state = state' := by
  constructor
  · rintro ⟨s, r, he, rfl⟩
    cases he
    rfl
  · rintro rfl
    exact ⟨_, _, rfl, rfl⟩

/-- What comes after a node that leads to `m`: a stop at `m`, unless the steps are used up, and the
end of the turn if the id of `m` is empty. -/
def Continues (m : Flow.Node) (rest : List Stop) (e : Ending) : Prop :=
  if m.id = "" then rest = [] ∧ e.In .completed
  else (∃ st, rest.head? = some st ∧ st.node = m) ∨ rest = [] ∧ e.In .stepLimit

/-- The node was left with an effect, for a place where a turn completes: it is an ending, or it has
no edge, or the node that it leads to has the empty id. -/
def Stop.Completes (flow : Flow) (st : Stop) : Prop :=
  ∃ e, st.fate = .over (.done e) ∧ (Step.IsEnding st.node ∨ flow.outgoing st.node.id = [] ∨
    ∃ m, flow.successor? st.node.id e.handle = some m ∧ m.id = "")

/-- The node was left with the effect, and it leads on. -/
structure Stop.LeadsOn (flow : Flow) (st : Stop) (e : Step.Effect) : Prop where
  fate : st.fate = .over (.done e)
  runs : ¬ e.course.Stops
  block : ¬ Step.IsEnding st.node
  edges : flow.outgoing st.node.id ≠ []

/-! ### One step -/

/-- A node that completes the turn. -/
theorem completes_of_course (hd : flow.defects = []) {n : Flow.Node} {e : Step.Effect}
    (hl : Step.Leaves flow n e)
    (hc : e.course = .finish ∨ e.course = .proceed none ∨ e.course = .proceed (some "")) :
    Step.IsEnding n ∨ flow.outgoing n.id = [] ∨
      ∃ m, flow.successor? n.id e.handle = some m ∧ m.id = "" := by
  cases hl with
  | stops h => rcases h with h | ⟨_, h⟩ <;> simp [h] at hc
  | ends hn => exact .inl hn
  | leads h =>
      by_cases hout : flow.outgoing n.id = []
      · exact .inr (.inl hout)
      · obtain ⟨m, hm⟩ : ∃ m, flow.successor? n.id e.handle = some m :=
          Flow.successor?_isSome hd hout
        rw [Step.Leads, hm] at h
        simp [h] at hc
        exact .inr (.inr ⟨m, hm, hc⟩)

/-- The node that another one leads to. -/
theorem leads_to (hd : flow.defects = []) {st : Stop} {e : Step.Effect} (hs : st.LeadsOn flow e)
    (hl : Step.Leaves flow st.node e) : ∃ m, flow.successor? st.node.id e.handle = some m ∧
      e.course = .proceed (some m.id) ∧ flow.node? m.id = some m := by
  cases hl with
  | stops h => exact absurd h hs.runs
  | ends hn => exact absurd hn hs.block
  | leads h =>
      obtain ⟨m, hm⟩ : ∃ m, flow.successor? st.node.id e.handle = some m :=
        Flow.successor?_isSome hd hs.edges
      obtain ⟨edge, -, -, ht⟩ := Flow.successor?_eq_some hm
      rw [Step.Leads, hm] at h
      exact ⟨m, hm, h, (Flow.node?_eq_some ht).2 ▸ ht⟩

/-- A turn that goes on at a node stops there first, or has no step left. -/
theorem Goes.first {left : Nat} {w : Walk} {n : Flow.Node} {resumed : Bool} {answer : Option String}
    {stops : List Stop} {e : Ending} (h : Goes f left w n resumed answer stops e) :
    (∃ st, stops.head? = some st ∧ st.node = n) ∨ stops = [] ∧ e.In .stepLimit := by
  cases h with
  | exhausted => exact .inr ⟨rfl, in_finish.mpr rfl⟩
  | spared | deserted | cut | ended | onward => exact .inl ⟨_, rfl, rfl⟩

/-- A turn is abandoned at a stop. -/
theorem Goes.ne_nil_of_abandoned {left : Nat} {w : Walk} {n : Flow.Node} {resumed : Bool}
    {answer : Option String} {stops : List Stop} {s : Session}
    (h : Goes f left w n resumed answer stops (.abandoned s)) : stops ≠ [] := by
  rintro rfl
  rcases h.first with ⟨_, hst, -⟩ | ⟨-, _, _, he, -⟩
  · cases hst
  · cases he

/-! ### A turn -/

/-- A turn that completes does so at its last stop. -/
theorem completes_of_goes (hd : f.setting.flow.defects = []) {left : Nat} {w : Walk} {n : Flow.Node}
    {resumed : Bool} {answer : Option String} {stops : List Stop} {e : Ending}
    (h : Goes f left w n resumed answer stops e) (he : e.In .completed) :
    ∃ st, stops.getLast? = some st ∧ st.Completes f.setting.flow := by
  induction h with
  | exhausted | spared => cases in_finish.mp he
  | deserted => obtain ⟨s, r, he, -⟩ := he; cases he
  | @cut _ _ _ _ _ i =>
      cases i with
      | abandoned => obtain ⟨s, r, he, -⟩ := he; cases he
      | deadline | cancelled => cases in_finish.mp he
  | ended w n resumed answer ho hs =>
      cases hs with
      | failed | waits | handsOff | strays => cases in_finish.mp he
      | completes hc =>
          exact ⟨_, rfl, _, rfl, completes_of_course hd (Step.leaves_of_ends ho) hc⟩
  | @onward _ _ _ _ _ _ _ _ rest _ _ _ _ ih =>
      obtain ⟨st, hst, hc⟩ := ih he
      cases rest with
      | nil => cases hst
      | cons => exact ⟨st, by rw [List.getLast?_cons_cons]; exact hst, hc⟩

/-- A node that leads on is not the last one of a turn, but for the empty id. -/
theorem continues_of_settles (hd : f.setting.flow.defects = []) {w : Walk} {st : Stop}
    {o : Step.Outcome} {e : Ending} {effect : Step.Effect} (hf : st.fate = .over o)
    (ho : (Step.run f.setting st.node st.session st.answer).Ends o)
    (hs : Settles f w st.node o (.inl e)) (hst : st.LeadsOn f.setting.flow effect) :
    ∃ m, f.setting.flow.successor? st.node.id effect.handle = some m ∧ Continues m [] e := by
  cases hf.symm.trans hst.fate
  obtain ⟨m, hm, hc, hfound⟩ := leads_to hd hst (Step.leaves_of_ends ho)
  refine ⟨m, hm, ?_⟩
  unfold Continues
  cases hs with
  | waits h | handsOff h => cases hc.symm.trans h
  | completes h =>
      simp [hc] at h
      rw [if_pos h]
      exact ⟨rfl, in_finish.mpr rfl⟩
  | strays h hnone =>
      cases hc.symm.trans h
      cases hfound.symm.trans hnone

theorem eq_of_suffix_singleton {st st' : Stop} {rest : List Stop} (h : st :: rest <:+ [st']) :
    st = st' ∧ rest = [] := by
  rcases List.suffix_cons_iff.mp h with h | h
  · exact List.cons.inj h
  · cases List.suffix_nil.mp h

/-- **After a node that leads on** the turn goes on at its successor, by induction on its way. -/
theorem continues_of_goes (hd : f.setting.flow.defects = []) {left : Nat} {w : Walk} {n : Flow.Node}
    {resumed : Bool} {answer : Option String} {stops : List Stop} {e : Ending}
    (h : Goes f left w n resumed answer stops e) {rest : List Stop} {st : Stop}
    {effect : Step.Effect} (hstops : st :: rest <:+ stops)
    (hst : st.LeadsOn f.setting.flow effect) :
    ∃ m, f.setting.flow.successor? st.node.id effect.handle = some m ∧ Continues m rest e := by
  induction h with
  | exhausted => cases List.suffix_nil.mp hstops
  | spared | deserted | cut =>
      obtain ⟨rfl, -⟩ := eq_of_suffix_singleton hstops
      cases hst.fate
  | ended w n resumed answer ho hs =>
      obtain ⟨rfl, rfl⟩ := eq_of_suffix_singleton hstops
      exact continues_of_settles hd rfl ho hs hst
  | onward w n resumed answer ho hs t ih =>
      rcases List.suffix_cons_iff.mp hstops with heq | hin
      · obtain ⟨rfl, rfl⟩ := List.cons.inj heq
        cases hst.fate
        obtain ⟨m, hm, hc, hfound⟩ := leads_to hd hst (Step.leaves_of_ends ho)
        refine ⟨m, hm, ?_⟩
        cases hs with
        | proceeds h hnext hm' =>
            cases hc.symm.trans h
            cases hfound.symm.trans hm'
            unfold Continues
            rw [if_neg hnext]
            exact t.first
      · exact ih hin

/-- **A turn completes where the graph ends.**  In every turn of every session under a registered
flow, whatever it is told and whatever comes between: if it completes, its last stop is at an
ending, at a node without edges or at a node that leads to the one with the empty id; and a node
with an edge that is no ending and neither waits, hands off nor fails leads to a node of the flow,
which is the next stop unless the steps are used up, or its id is empty and the turn completes
there. -/
theorem completes_where_the_graph_ends {r r' : Registry} {raw : Value} {setting : Step.Setting}
    (hr : r.register raw = .ok (r', setting.flow)) {now : Calendar.Moment} {session : Session}
    {message : Option String} {timeout : Option Binary64} {stops : List Stop} {e : Ending}
    (h : (tour setting now session message timeout).Ends (stops, e)) :
    (e.In .completed → ∃ st, stops.getLast? = some st ∧ st.Completes setting.flow) ∧
      ∀ st rest effect, st :: rest <:+ stops → st.LeadsOn setting.flow effect →
        ∃ m, setting.flow.successor? st.node.id effect.handle = some m ∧ Continues m rest e := by
  have hd := Registry.defects_of_register hr
  cases tours_of_ends h with
  | refused | lost =>
      refine ⟨fun he => ?_, fun st rest effect hst => ?_⟩
      · cases in_finish.mp he
      · cases List.suffix_nil.mp hst
  | underway f _ hf _ t =>
      subst hf
      exact ⟨completes_of_goes hd t, fun st rest effect => continues_of_goes hd t⟩

/-! ### A node with the empty id -/

/-- A greeting, a welcome whose id is empty, and a farewell. -/
def unnamed : Flow :=
  { id := "unnamed"
    nodes := [{ id := "start", block := .start {} },
      { id := "hello", block := .message { message := "Hello." } },
      { id := "", block := .message { message := "Welcome." } },
      { id := "bye", block := .ending {} }]
    edges := [{ source := "start", target := "hello" }, { source := "hello", target := "" },
      { source := "", target := "bye" }] }

/-- The same as a document. -/
def unnamedDocument : Value :=
  .object [("id", .text "unnamed"), ("name", .text ""),
    ("nodes", .list [
      .object [("id", .text "start"), ("type", .text "start")],
      .object [("id", .text "hello"), ("type", .text "message"),
        ("data", .object [("message", .text "Hello.")])],
      .object [("id", .text ""), ("type", .text "message"),
        ("data", .object [("message", .text "Welcome.")])],
      .object [("id", .text "bye"), ("type", .text "end")]]),
    ("edges", .list [
      .object [("id", .text ""), ("source", .text "start"), ("target", .text "hello")],
      .object [("id", .text ""), ("source", .text "hello"), ("target", .text "")],
      .object [("id", .text ""), ("source", .text ""), ("target", .text "bye")]])]

theorem register_unnamedDocument : Registry.register {} unnamedDocument =
    .ok ({ flows := [("unnamed", unnamed)], versions := [(("unnamed", 1), unnamed)] }, unnamed) :=
  rfl

/-- The flow under the standard policy, with no collaborators. -/
def unnamedSetting : Step.Setting := ⟨unnamed, {}, {}⟩

/-- A turn of a new session. -/
def unnamedTurn : List Stop × Ending :=
  ((tour unnamedSetting newYear { newcomer with flowId := "unnamed" } (some "hi") none).play
    (undisturbed silent 0) ()).1

/-- The greeting follows the start, and the turn completes before the welcome. -/
theorem completes_where_the_graph_ends_unnamed :
    ∃ r', Registry.register {} unnamedDocument = .ok (r', unnamedSetting.flow) ∧
      (tour unnamedSetting newYear { newcomer with flowId := "unnamed" } (some "hi") none).Ends
        (unnamedTurn.1, unnamedTurn.2) ∧
      unnamedTurn.1.map (·.node.id) = ["start", "hello"] ∧
      unnamedTurn.2.result?.map (·.state) = some .completed ∧
      (unnamedTurn.2.In .completed →
        ∃ st, unnamedTurn.1.getLast? = some st ∧ st.Completes unnamedSetting.flow) ∧
      ∀ st rest effect, st :: rest <:+ unnamedTurn.1 → st.LeadsOn unnamedSetting.flow effect →
        ∃ m, unnamedSetting.flow.successor? st.node.id effect.handle = some m ∧
          Continues m rest unnamedTurn.2 := by
  have h : (tour unnamedSetting newYear { newcomer with flowId := "unnamed" } (some "hi") none).Ends
      (unnamedTurn.1, unnamedTurn.2) := Program.ends_play _ _ _
  exact ⟨_, register_unnamedDocument, h, by decide +kernel, by decide +kernel,
    completes_where_the_graph_ends register_unnamedDocument h⟩

end Parley.Turn
