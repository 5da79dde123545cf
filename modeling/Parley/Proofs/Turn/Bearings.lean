import Parley.Proofs.Step.Routing
import Parley.Proofs.Turn.Conversation
import Parley.Registry

/-!
# Turns under a registered flow

A flow is registered only without defects.  Under such a flow a turn always has a node to go to: to
begin at, to go back to and to go on to.  What carries this from turn to turn is `FindsPlace`: where
the next turn would take up a node, the flow has that node.

So the errors that speak of a node which the flow does not have (`Misconfigures`) are the error of
no turn (`registered_flow_is_complete`).
-/

namespace Parley.Registry

variable {r r' : Registry} {raw : Value} {f : Flow}

/-- A flow that was added has no defects. -/
theorem defects_of_add (h : r.add f = .ok r') : f.defects = [] := by
  unfold add at h
  split at h
  · next hd => exact hd
  · cases h

/-- **A flow that is registered has no defects.** -/
theorem defects_of_register (h : r.register raw = .ok (r', f)) : f.defects = [] := by
  unfold register at h
  split at h
  · next fields =>
    cases hp : parse (.object fields) with
    | error e => simp [hp, bind, Except.bind] at h
    | ok g =>
        cases ha : r.add g with
        | error e => simp [hp, ha, bind, Except.bind] at h
        | ok added =>
            simp only [hp, ha, bind, Except.bind, pure, Except.pure] at h
            cases h
            exact defects_of_add ha
  · cases h

end Parley.Registry

namespace Parley.Turn

variable {flow : Flow}

/-- The error, at the node where the session stands, speaks of a node that the flow does not have.
-/
def Misconfigures (place error : String) : Prop :=
  error = "flow has no start node" ∨
    (∃ id, error = "suspended node '" ++ id ++ "' not found in flow") ∨
    ∃ next, error = "node '" ++ place ++ "' routes to missing node '" ++ next ++ "'"

/-- The node that the next turn would take up is there. -/
def FindsPlace (flow : Flow) (s : Session) : Prop :=
  takesUp s = true → ∃ n, flow.node? s.currentNodeId = some n

/-- A session that does not wait finds its place. -/
theorem findsPlace_of_status {s : Session} (h : s.status ≠ .waitingInput) : FindsPlace flow s := by
  intro ht
  exact absurd (eq_of_beq (Bool.and_eq_true_iff.mp ht).1) h

/-- So does a session at a node of the flow. -/
theorem findsPlace_of_node? {s : Session} {n : Flow.Node} (hn : flow.node? n.id = some n)
    (hid : s.currentNodeId = n.id) : FindsPlace flow s :=
  fun _ => ⟨n, hid ▸ hn⟩

/-- What a turn leaves under a flow that has all the nodes it needs. -/
structure Bears (flow : Flow) (e : Ending) : Prop where
  finds : FindsPlace flow e.session
  result : e.Leaves fun _ r => ¬ Misconfigures r.currentNodeId r.error

/-! ### The errors of a turn -/

theorem not_misconfigures_empty (place : String) : ¬ Misconfigures place "" := by
  rintro (h | ⟨id, h⟩ | ⟨next, h⟩) <;> simp at h

theorem not_misconfigures_reason (place : String) (i : Interruption) :
    ¬ Misconfigures place i.reason := by
  cases i <;> rintro (h | ⟨id, h⟩ | ⟨next, h⟩) <;>
    simpa [Interruption.reason] using congrArg String.toList h

theorem not_misconfigures_failed (n : Flow.Node) (error : String) :
    ¬ Misconfigures n.id ("node '" ++ n.id ++ "' (" ++ n.kind ++ ") failed: " ++ error) := by
  rintro (h | ⟨id, h⟩ | ⟨next, h⟩) <;> simpa using congrArg String.toList h

theorem not_misconfigures_exhausted (place steps next : String) :
    ¬ Misconfigures place
      ("step limit of " ++ steps ++ " reached before node '" ++ next ++ "'") := by
  rintro (h | ⟨id, h⟩ | ⟨next, h⟩) <;> simpa using congrArg String.toList h

/-! ### What a turn leaves -/

/-- A turn that finishes bears the flow when its session finds its place. -/
theorem bears_finish {f : Frame} {w : Walk} {state : State} {handoff : Option Handoff}
    {error : String} (hs : FindsPlace flow w.session)
    (he : ¬ Misconfigures w.session.currentNodeId error) :
    Bears flow (f.finish w state error handoff) := ⟨hs, he⟩

theorem bears_fail {f : Frame} {w : Walk} {state : State} {error : String}
    (he : ¬ Misconfigures w.session.currentNodeId error) : Bears flow (f.fail w state error) :=
  bears_finish (findsPlace_of_status nofun) he

/-- A turn that is aborted at a node bears the flow. -/
theorem bears_abort {f : Frame} {w : Walk} {n : Flow.Node} (hn : flow.node? n.id = some n)
    (i : Interruption) : Bears flow (f.abort w n i.reason) :=
  bears_finish (findsPlace_of_node? hn rfl) (not_misconfigures_reason n.id i)

/-- A node leads only to nodes of the flow. -/
theorem node?_of_leaves {n : Flow.Node} {e : Step.Effect} {next : String} (h : Step.Leaves flow n e)
    (hc : e.course = .proceed (some next)) : ∃ m, flow.node? next = some m := by
  cases h with
  | stops h => rcases h with h | ⟨_, h⟩ <;> cases hc.symm.trans h
  | ends _ h => cases hc.symm.trans h
  | leads h =>
      have hnext : (flow.successor? n.id e.handle).map (·.id) = some next :=
        Step.Course.proceed.inj (h.symm.trans hc)
      obtain ⟨m, hm, rfl⟩ := Option.map_eq_some_iff.mp hnext
      obtain ⟨edge, -, -, ht⟩ := Flow.successor?_eq_some hm
      exact ⟨m, (Flow.node?_eq_some ht).2 ▸ ht⟩

/-- A node of the flow that settles a turn makes it bear the flow. -/
theorem bears_of_settles {f : Frame} {w : Walk} {n : Flow.Node} {session : Session}
    {answer : Option String} {o : Step.Outcome} {e : Ending}
    (hn : f.setting.flow.node? n.id = some n) (ho : (Step.run f.setting n session answer).Ends o)
    (hs : Settles f w n o (.inl e)) : Bears f.setting.flow e := by
  cases hs with
  | failed error => exact bears_fail (not_misconfigures_failed n error)
  | waits | handsOff | completes =>
      exact bears_finish (findsPlace_of_node? hn rfl) (not_misconfigures_empty _)
  | strays hc hm =>
      obtain ⟨m, hm'⟩ := node?_of_leaves (Step.leaves_of_ends ho) hc
      cases hm.symm.trans hm'

/-- **From a node on** every turn leaves the session where the next one finds it, by induction on
the way of its tour. -/
theorem bears_of_goes {f : Frame} {left : Nat} {w : Walk} {n : Flow.Node} {resumed : Bool}
    {answer : Option String} {stops : List Stop} {e : Ending}
    (h : Goes f left w n resumed answer stops e) (hn : f.setting.flow.node? n.id = some n)
    (hw : FindsPlace f.setting.flow w.session) : Bears f.setting.flow e := by
  induction h with
  | exhausted w n => exact bears_fail (not_misconfigures_exhausted _ _ n.id)
  | spared => exact bears_abort hn .cancelled
  | deserted => exact ⟨hw, trivial⟩
  | @cut _ _ _ _ _ i =>
      cases i with
      | abandoned => exact ⟨hw, trivial⟩
      | deadline => exact bears_abort hn .deadline
      | cancelled => exact bears_abort hn .cancelled
  | ended _ _ _ _ ho hs => exact bears_of_settles hn ho hs
  | onward w n _ _ _ hs _ ih =>
      cases hs with
      | proceeds _ _ hm =>
          exact ih ((Flow.node?_eq_some hm).2.symm ▸ hm) (findsPlace_of_node? hn rfl)

/-- The node where a turn begins is found, and so is the session that it finds. -/
theorem Enters.findsPlace (hd : flow.defects = []) {session opened : Session}
    {answer given : Option String} {n : Flow.Node} (h : Enters flow session answer n given opened) :
    flow.node? n.id = some n ∧ FindsPlace flow opened := by
  cases h with
  | again ht hn => exact ⟨(Flow.node?_eq_some hn).2.symm ▸ hn, fun _ => ⟨n, hn⟩⟩
  | anew ht hn => exact ⟨Flow.node?_id hd (Flow.startNode?_eq_some hn).1,
      findsPlace_of_status nofun⟩

/-- A turn has a node to begin at. -/
theorem entry_ok (hd : flow.defects = []) {session : Session} (hs : FindsPlace flow session)
    (answer : Option String) : ∃ first, entry flow session answer = .ok first := by
  unfold entry
  split
  · next ht =>
    obtain ⟨n, hn⟩ := hs ht
    rw [hn]
    exact ⟨_, rfl⟩
  · obtain ⟨n, hn⟩ := Flow.exists_startNode? hd
    rw [hn]
    exact ⟨_, rfl⟩

theorem findsPlace_begun {now : Calendar.Moment} {session : Session} {message : Option String} :
    FindsPlace flow (begun now session message) ↔ FindsPlace flow session := by
  rw [begun_eq]
  exact Iff.rfl

/-- **A turn** of a session that stands where the flow has a node leaves it so. -/
theorem bears_of_tours {setting : Step.Setting} (hd : setting.flow.defects = [])
    {now : Calendar.Moment} {session : Session} {message : Option String} {stops : List Stop}
    {e : Ending} (hflow : session.flowId = setting.flow.id) (hs : FindsPlace setting.flow session)
    (h : Tours setting now session message stops e) : Bears setting.flow e := by
  cases h with
  | refused _ hne => exact absurd hflow hne
  | lost _ _ _ he =>
      obtain ⟨first, hok⟩ := entry_ok hd (findsPlace_begun.mpr hs) (Step.givenAnswer message)
      cases he.symm.trans hok
  | underway f _ hf he t =>
      subst hf
      obtain ⟨hn, hopened⟩ := (enters_of_entry he).findsPlace hd
      exact bears_of_goes t hn hopened

/-- In a flow without defects every turn of a conversation bears it, and the session finds its
place. -/
theorem Conversation.bears {setting : Step.Setting} (hd : setting.flow.defects = [])
    {first s : Session} {episodes : List Episode} (hflow : first.flowId = setting.flow.id)
    (hfirst : FindsPlace setting.flow first) (h : Conversation setting first episodes s) :
    FindsPlace setting.flow s ∧ ∀ e ∈ episodes, Bears setting.flow e.ending := by
  induction h with
  | opening => exact ⟨hfirst, List.forall_mem_nil _⟩
  | turn h now message timeout t ih =>
      have hb := bears_of_tours hd (h.flowId.trans hflow) ih.1 (tours_of_ends t)
      exact ⟨hb.finds, List.forall_mem_append.mpr ⟨ih.2, List.forall_mem_singleton.mpr hb⟩⟩

/-- **A registered flow has every node that its turns need.**  In every conversation from a new
session under a flow that was registered, whatever the turns are told, whatever the collaborators
answer and whenever turns are interrupted or abandoned, under strict or lenient routing, no turn
ends for want of a start node, of the node where the session waits or of the node that another one
leads to; and no route leads from a node with an edge to nothing. -/
theorem registered_flow_is_complete {r r' : Registry} {raw : Value} {setting : Step.Setting}
    {first s : Session} {episodes : List Episode} (hr : r.register raw = .ok (r', setting.flow))
    (hflow : first.flowId = setting.flow.id) (hnew : first.status ≠ .waitingInput)
    (h : Conversation setting first episodes s) :
    (∀ e ∈ episodes, e.ending.Leaves fun _ r => ¬ Misconfigures r.currentNodeId r.error) ∧
      ∀ id, setting.flow.outgoing id ≠ [] → ∀ handle strict warnings,
        setting.flow.route id handle strict ≠ .ok (none, warnings) := by
  have hd := Registry.defects_of_register hr
  constructor
  · intro e he
    exact ((h.bears hd hflow (findsPlace_of_status hnew)).2 e he).result
  · intro id hout handle strict warnings hroute
    have hrule := setting.flow.route_eq id handle strict
    rw [hroute] at hrule
    obtain ⟨m, hm⟩ := Flow.successor?_isSome hd hout
    split at hrule
    · cases hrule
    · cases (Except.ok.inj hrule).trans hm

/-- The greeting as a document. -/
def greetingDocument : Value :=
  .object [("id", .text "greeting"), ("name", .text ""),
    ("nodes", .list [
      .object [("id", .text "start"), ("type", .text "start")],
      .object [("id", .text "hello"), ("type", .text "message"),
        ("data", .object [("message", .text "Hello.")])],
      .object [("id", .text "pause"), ("type", .text "delay"),
        ("data", .object [("delaySeconds", .float (.ofRank false 1))])],
      .object [("id", .text "name"), ("type", .text "input"),
        ("data", .object [("question", .text "Who is there?"), ("variableName", .text "name")])],
      .object [("id", .text "bye"), ("type", .text "end"),
        ("data", .object [("finalMessage", .text "Good day, {name}.")])]]),
    ("edges", .list [
      .object [("id", .text ""), ("source", .text "start"), ("target", .text "hello")],
      .object [("id", .text ""), ("source", .text "hello"), ("target", .text "pause")],
      .object [("id", .text ""), ("source", .text "pause"), ("target", .text "name")],
      .object [("id", .text ""), ("source", .text "name"), ("target", .text "bye")]])]

theorem register_greetingDocument : Registry.register {} greetingDocument =
    .ok ({ flows := [("greeting", greeting)], versions := [(("greeting", 1), greeting)] },
      greeting) :=
  rfl

/-- The greeting is registered from its document; it is interrupted in its pause and taken up again.
-/
theorem registered_flow_is_complete_greeting :
    ∃ r' episodes s, (Registry.register {} greetingDocument = .ok (r', greetingSetting.flow) ∧
        newcomer.flowId = greetingSetting.flow.id ∧ newcomer.status ≠ .waitingInput ∧
        Conversation greetingSetting newcomer episodes s) ∧
      episodes.map (fun e => e.ending.result?.map fun r => (r.state, r.error)) =
        [some (.timeout, "turn deadline exceeded"), some (.waitingInput, "")] ∧
      (∀ e ∈ episodes, e.ending.Leaves fun _ r => ¬ Misconfigures r.currentNodeId r.error) ∧
      ∀ id, greetingSetting.flow.outgoing id ≠ [] → ∀ handle strict warnings,
        greetingSetting.flow.route id handle strict ≠ .ok (none, warnings) := by
  have h₁ : Conversation greetingSetting newcomer [⟨greetingHalted.1, greetingHalted.2⟩]
      greetingHalted.2.session :=
    Conversation.opening.turn newYear (some "hi") none (Program.ends_play _ _ _)
  have h₂ : Conversation greetingSetting newcomer
      [⟨greetingHalted.1, greetingHalted.2⟩, ⟨greetingResumed.1, greetingResumed.2⟩]
      greetingResumed.2.session :=
    h₁.turn newYear none none (Program.ends_play _ _ _)
  have hnew : newcomer.status ≠ .waitingInput := by decide
  exact ⟨_, _, _, ⟨register_greetingDocument, rfl, hnew, h₂⟩, by decide +kernel,
    registered_flow_is_complete register_greetingDocument rfl hnew h₂⟩

end Parley.Turn
