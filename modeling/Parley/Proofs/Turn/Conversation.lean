import Mathlib.Data.List.Chain
import Parley.Proofs.Flow.Routes
import Parley.Proofs.Turn.Tour

/-!
# Conversations

A conversation is the turns that one session takes, one after the other.  What each turn writes to
the session, on whichever exit, must agree with its result and with the rule by which the next
turn begins.

`Agrees` is what the status of the session, the state of the turn, its error and its hand-off have
to do with each other.  `Rests` is the invariant that couples them with the node where the session
stands: a session that waits stands at a node that the flow can tell apart (`Flow.Tells`), so that
the next turn finds it.  A turn from any session of the flow leaves it so (`rests_of_tours`), and
from a session that is left so the next turn sets out from the right node (`first_stop`).
-/

namespace Parley.Turn

/-! ### What a turn leaves alone -/

/-- A turn does not change whose session it is, or of which flow. -/
structure Keeps (s s' : Session) : Prop where
  flowId : s'.flowId = s.flowId
  contact : s'.contact = s.contact

theorem Keeps.trans {s s₁ s' : Session} (h : Keeps s s₁) (h' : Keeps s₁ s') : Keeps s s' :=
  ⟨h'.flowId.trans h.flowId, h'.contact.trans h.contact⟩

theorem keeps_begun (now : Calendar.Moment) (session : Session) (message : Option String) :
    Keeps session (begun now session message) := by
  rw [begun_eq]
  exact ⟨rfl, rfl⟩

/-- To enter a node keeps the session. -/
theorem Enters.keeps {flow : Flow} {session opened : Session} {answer given : Option String}
    {n : Flow.Node} (h : Enters flow session answer n given opened) : Keeps session opened := by
  cases h <;> exact ⟨rfl, rfl⟩

/-- The node where a turn begins is one of the flow. -/
theorem Enters.mem_nodes {flow : Flow} {session opened : Session} {answer given : Option String}
    {n : Flow.Node} (h : Enters flow session answer n given opened) : n ∈ flow.nodes := by
  cases h with
  | again _ hn => exact (Flow.node?_eq_some hn).1
  | anew _ hn => exact (Flow.startNode?_eq_some hn).1

/-- A turn comes only to nodes of its flow. -/
theorem Goes.mem_nodes {f : Frame} {left : Nat} {w : Walk} {n : Flow.Node} {resumed : Bool}
    {answer : Option String} {stops : List Stop} {e : Ending}
    (h : Goes f left w n resumed answer stops e) (hn : n ∈ f.setting.flow.nodes) {st : Stop}
    (hst : st ∈ stops) : st.node ∈ f.setting.flow.nodes := by
  induction h with
  | exhausted => cases hst
  | spared | deserted | cut | ended =>
      obtain rfl := List.mem_singleton.mp hst
      exact hn
  | onward _ _ _ _ _ hs _ ih =>
      cases hs with
      | proceeds _ _ hm =>
          rcases List.mem_cons.mp hst with rfl | hst
          · exact hn
          · exact ih (Flow.node?_eq_some hm).1 hst

/-- A tour comes to nodes of its flow. -/
theorem Tours.mem_nodes {setting : Step.Setting} {now : Calendar.Moment} {session : Session}
    {message : Option String} {stops : List Stop} {e : Ending}
    (h : Tours setting now session message stops e) {st : Stop} (hst : st ∈ stops) :
    st.node ∈ setting.flow.nodes := by
  cases h with
  | refused | lost => cases hst
  | underway f _ hf he t =>
      subst hf
      exact t.mem_nodes (enters_of_entry he).mem_nodes hst

/-- However a walk goes on, it keeps the session. -/
theorem keeps_of_goes {f : Frame} {left : Nat} {w : Walk} {n : Flow.Node} {resumed : Bool}
    {answer : Option String} {stops : List Stop} {e : Ending}
    (h : Goes f left w n resumed answer stops e) : Keeps w.session e.session := by
  induction h with
  | exhausted | spared | deserted => exact ⟨rfl, rfl⟩
  | @cut _ _ _ _ _ i => cases i <;> exact ⟨rfl, rfl⟩
  | ended w n resumed answer _ hs => cases hs <;> exact ⟨rfl, rfl⟩
  | onward w n resumed answer _ hs _ ih =>
      cases hs with
      | proceeds => exact ⟨ih.flowId, ih.contact⟩

/-- A tour keeps the session. -/
theorem keeps_of_tours {setting : Step.Setting} {now : Calendar.Moment} {session : Session}
    {message : Option String} {stops : List Stop} {e : Ending}
    (h : Tours setting now session message stops e) : Keeps session e.session := by
  have hb := keeps_begun now session message
  cases h with
  | refused => exact ⟨rfl, rfl⟩
  | lost => exact ⟨hb.flowId, hb.contact⟩
  | underway _ _ _ he t => exact hb.trans ((enters_of_entry he).keeps.trans (keeps_of_goes t))

/-! ### What a turn leaves behind -/

/-- The status of a session after a turn that ended so. -/
def State.status : State → Session.Status
  | .completed => .completed
  | .waitingInput | .timeout => .waitingInput
  | .handoff => .handoff
  | .error | .stepLimit => .error

/-- The session agrees with the result of the turn that left it. -/
structure Agrees (s : Session) (r : Result) : Prop where
  waits : s.status = .waitingInput ↔ r.state = .waitingInput ∨ r.state = .timeout
  handedOff : s.status = .handoff ↔ r.state = .handoff
  completed : s.status = .completed ↔ r.state = .completed
  failed : s.status = .error ↔ r.state = .error ∨ r.state = .stepLimit
  rests : s.status ≠ .active
  handoff : r.handoff.isSome ↔ r.state = .handoff
  error : r.error ≠ "" ↔ r.state = .error ∨ r.state = .timeout ∨ r.state = .stepLimit

/-- The session agrees with the result, and when it waits it stands at a node that the flow can tell
apart. -/
structure Rests (flow : Flow) (s : Session) (r : Result) : Prop where
  agrees : Agrees s r
  place : s.status = .waitingInput → ∃ n, flow.Tells n ∧ s.currentNodeId = n.id

/-- The status of its state, an error just when there is one to tell and a hand-off just when there
is one. -/
theorem Agrees.of_status {s : Session} {r : Result} (hs : s.status = r.state.status)
    (hh : r.handoff.isSome ↔ r.state = .handoff)
    (he : r.error ≠ "" ↔ r.state = .error ∨ r.state = .timeout ∨ r.state = .stepLimit) :
    Agrees s r := by
  refine ⟨?_, ?_, ?_, ?_, ?_, hh, he⟩ <;> rw [hs] <;> cases r.state <;> simp [State.status]

/-- A tour that finishes in a state leaves the session at rest in it. -/
theorem rests_finish {f : Frame} {flow : Flow} {w : Walk} {state : State} {error : String}
    {handoff : Option Handoff} (hs : w.session.status = state.status)
    (hh : handoff.isSome ↔ state = .handoff)
    (he : error ≠ "" ↔ state = .error ∨ state = .timeout ∨ state = .stepLimit)
    (hp : state.status = .waitingInput → ∃ n, flow.Tells n ∧ w.session.currentNodeId = n.id) :
    (f.finish w state error handoff).Leaves (Rests flow) :=
  ⟨.of_status hs hh he, fun hw => hp (hs.symm.trans hw)⟩

/-- A tour that fails leaves the session at rest. -/
theorem rests_fail {f : Frame} {flow : Flow} {w : Walk} {state : State} {error : String}
    (hs : state = .error ∨ state = .stepLimit) (he : error ≠ "") :
    (f.fail w state error).Leaves (Rests flow) := by
  rcases hs with rfl | rfl
  · exact rests_finish rfl (by simp) (by simpa using he) (by simp [State.status])
  · exact rests_finish rfl (by simp) (by simpa using he) (by simp [State.status])

/-- A tour that is aborted leaves the session at rest. -/
theorem rests_abort {f : Frame} {flow : Flow} {w : Walk} {n : Flow.Node} (hn : flow.Tells n)
    (i : Interruption) : (f.abort w n i.reason).Leaves (Rests flow) :=
  rests_finish rfl (by simp) (by cases i <;> simp [Interruption.reason]) fun _ => ⟨n, hn, rfl⟩

/-- A node that settles a tour leaves the session at rest. -/
theorem rests_of_settles {f : Frame} {w : Walk} {n : Flow.Node} {o : Step.Outcome} {e : Ending}
    (hn : f.setting.flow.Tells n) (hs : Settles f w n o (.inl e)) :
    e.Leaves (Rests f.setting.flow) := by
  cases hs with
  | failed error => exact rests_fail (.inl rfl) (by simp)
  | waits hc => exact rests_finish rfl (by simp) (by simp) fun _ => ⟨n, hn, rfl⟩
  | handsOff hc => exact rests_finish rfl (by simp) (by simp) (by simp [State.status])
  | completes hc => exact rests_finish rfl (by simp) (by simp) (by simp [State.status])
  | strays hc hm => exact rests_fail (.inl rfl) (by simp)

/-- **What a tour leaves behind.**  From a node that can be told apart it comes only to nodes that
can, and the node where it is cut short or waits is one of them. -/
theorem rests_of_goes {f : Frame} {left : Nat} {w : Walk} {n : Flow.Node} {resumed : Bool}
    {answer : Option String} {stops : List Stop} {e : Ending}
    (h : Goes f left w n resumed answer stops e) (hn : f.setting.flow.Tells n) :
    e.Leaves (Rests f.setting.flow) := by
  induction h with
  | exhausted => exact rests_fail (.inr rfl) (by simp)
  | spared => exact rests_abort hn .cancelled
  | deserted => trivial
  | @cut _ _ _ _ _ i =>
      cases i with
      | abandoned => trivial
      | deadline => exact rests_abort hn .deadline
      | cancelled => exact rests_abort hn .cancelled
  | ended _ _ _ _ _ hs => exact rests_of_settles hn hs
  | onward _ _ _ _ _ hs _ ih =>
      cases hs with
      | proceeds _ hnext hm => exact ih (.of_node? hm hnext)

/-! ### Where a turn begins -/

/-- A turn of a session that waits at a node takes up that node. -/
theorem entry_of_waits {flow : Flow} {n : Flow.Node} (hn : flow.Tells n) {session : Session}
    (hw : session.status = .waitingInput) (hid : session.currentNodeId = n.id)
    (answer : Option String) :
    ∃ given opened, entry flow session answer = .ok (n, given, opened) := by
  by_cases he : n.id = ""
  -- a session at the empty id begins anew, and the start node is that same node
  · exact ⟨none, { session with status := .active }, by
      simp [entry, hid, he, hn.start he]⟩
  · exact ⟨answer, session, by simp [entry, Session.isWaiting, hw, hid, he, hn.node]⟩

/-- A turn of a session that does not wait begins at the start. -/
theorem entry_of_rests {flow : Flow} {n : Flow.Node} (hn : flow.startNode? = some n)
    {session : Session} (hw : session.status ≠ .waitingInput) (answer : Option String) :
    entry flow session answer = .ok (n, none, { session with status := .active }) := by
  simp [entry, Session.isWaiting, hw, hn]

/-- A turn that has a node to begin at comes to that node first. -/
theorem first_stop {setting : Step.Setting} {now : Calendar.Moment} {session opened : Session}
    {message given : Option String} {n : Flow.Node} {stops : List Stop} {e : Ending}
    (h : Tours setting now session message stops e) (hmax : 0 < setting.policy.maxSteps)
    (hflow : session.flowId = setting.flow.id)
    (hn : entry setting.flow (begun now session message) (Step.givenAnswer message) =
      .ok (n, given, opened)) : ∃ st, stops.head? = some st ∧ st.node = n := by
  obtain ⟨left, hleft⟩ : ∃ left, setting.policy.maxSteps.toNat = left + 1 :=
    ⟨setting.policy.maxSteps.toNat - 1, by omega⟩
  cases h with
  | refused _ hne => exact absurd hflow hne
  | lost _ _ _ he => cases hn.symm.trans he
  | underway f _ _ he t =>
      cases hn.symm.trans he
      rw [hleft] at t
      cases t <;> exact ⟨_, rfl, rfl⟩

/-- The node where a turn begins can be told apart. -/
theorem Enters.tells {flow : Flow} (hd : flow.defects = []) {session opened : Session}
    {answer given : Option String} {n : Flow.Node}
    (h : Enters flow session answer n given opened) : flow.Tells n := by
  cases h with
  | again ht hn => exact .of_node? hn (by simp_all [takesUp])
  | anew _ hn => exact .of_startNode? hd hn

/-- Who cannot enter is told why. -/
theorem error_of_entry {flow : Flow} {session : Session} {answer : Option String} {error : String}
    (h : entry flow session answer = .error error) : error ≠ "" := by
  unfold entry at h
  split at h
  · split at h <;> cases h
    simp
  · split at h <;> cases h
    simp

/-- In a flow without defects every tour leaves the session at rest. -/
theorem rests_of_tours {setting : Step.Setting} (hd : setting.flow.defects = [])
    {now : Calendar.Moment} {session : Session} {message : Option String} {stops : List Stop}
    {e : Ending} (h : Tours setting now session message stops e) :
    e.Leaves (Rests setting.flow) := by
  cases h with
  | refused => exact rests_fail (.inl rfl) (by simp)
  | lost _ _ _ he => exact rests_fail (.inl rfl) (error_of_entry he)
  | underway f _ hf he t =>
      subst hf
      exact rests_of_goes t ((enters_of_entry he).tells hd)

/-! ### All the turns of a session -/

/-- A turn of a conversation: where it went and how it ended. -/
structure Episode where
  stops : List Stop
  ending : Ending

/-- The turns that a session has taken, in order, and the session as they leave it. -/
inductive Conversation (setting : Step.Setting) (first : Session) : List Episode → Session → Prop
  where
  | opening : Conversation setting first [] first
  | turn {past : List Episode} {s : Session} {stops : List Stop} {e : Ending}
      (h : Conversation setting first past s) (now : Calendar.Moment) (message : Option String)
      (timeout : Option Binary64)
      (t : (tour setting now s message timeout).Ends (stops, e)) :
      Conversation setting first (past ++ [⟨stops, e⟩]) e.session

/-- A conversation stays on its flow. -/
theorem Conversation.flowId {setting : Step.Setting} {first s : Session} {episodes : List Episode}
    (h : Conversation setting first episodes s) : s.flowId = first.flowId := by
  induction h with
  | opening => rfl
  | turn h now message timeout t ih => exact (keeps_of_tours (tours_of_ends t)).flowId.trans ih

/-- A conversation ends with the session of its last turn. -/
theorem Conversation.last {setting : Step.Setting} {first s : Session} {episodes : List Episode}
    (h : Conversation setting first episodes s) {e : Episode} (he : episodes.getLast? = some e) :
    e.ending.session = s := by
  cases h with
  | opening => cases he
  | turn h now message timeout t =>
      rw [List.getLast?_concat] at he
      cases he
      rfl

/-- The turn begins where the one before it left off: at the very node where the session waits, and
otherwise at the start. -/
def Follows (flow : Flow) (e e' : Episode) : Prop :=
  e.ending.Leaves fun s r => ∃ st, e'.stops.head? = some st ∧
    if r.state = .waitingInput ∨ r.state = .timeout
    then flow.node? s.currentNodeId = some st.node
    else flow.startNode? = some st.node

/-- A turn of a session that an earlier turn left follows that turn. -/
theorem follows_of_tours {setting : Step.Setting} (hd : setting.flow.defects = [])
    (hmax : 0 < setting.policy.maxSteps) {now : Calendar.Moment} {message : Option String}
    {e : Episode} {stops : List Stop} {ending : Ending}
    (hrest : e.ending.Leaves (Rests setting.flow))
    (hflow : e.ending.session.flowId = setting.flow.id)
    (h : Tours setting now e.ending.session message stops ending) :
    Follows setting.flow e ⟨stops, ending⟩ := by
  obtain ⟨before, left⟩ := e
  cases left with
  | abandoned s => trivial
  | finished s r =>
      obtain ⟨hagree, hplace⟩ := hrest
      by_cases hw : s.status = .waitingInput
      · obtain ⟨n, hn, hid⟩ := hplace hw
        obtain ⟨given, opened, he⟩ := entry_of_waits hn ((status_begun now s message).trans hw)
          ((currentNodeId_begun now s message).trans hid) (Step.givenAnswer message)
        obtain ⟨st, hst, rfl⟩ := first_stop h hmax hflow he
        refine ⟨st, hst, ?_⟩
        rw [if_pos (hagree.waits.mp hw), hid]
        exact hn.node
      · obtain ⟨n, hn⟩ := Flow.exists_startNode? hd
        have he := entry_of_rests hn (mt (status_begun now s message).symm.trans hw)
          (Step.givenAnswer message)
        obtain ⟨st, hst, rfl⟩ := first_stop h hmax hflow he
        refine ⟨st, hst, ?_⟩
        rw [if_neg (mt hagree.waits.mpr hw)]
        exact hn

/-- A turn from any session under a flow without defects leaves it as `Rests` says. -/
theorem Conversation.rests {setting : Step.Setting} (hd : setting.flow.defects = [])
    {first s : Session} {episodes : List Episode} (h : Conversation setting first episodes s) :
    ∀ e ∈ episodes, e.ending.Leaves (Rests setting.flow) := by
  induction h with
  | opening => exact fun e he => nomatch he
  | turn h now message timeout t ih =>
      intro e he
      rcases List.mem_append.mp he with he | he
      · exact ih e he
      · obtain rfl := List.mem_singleton.mp he
        exact rests_of_tours hd (tours_of_ends t)

/-- **The outcome of a turn and where the next one begins.**  In every conversation under a flow
without defects, whatever the turns are told, whatever the collaborators answer and whenever turns
are interrupted: after each turn the status of the session is the one that belongs to the state of
the turn, and so are the hand-off and the error of the result; a session that waits stands at a node
of the flow, and the next turn comes to that very node first; otherwise the next turn comes first to
the start node. -/
theorem conversation_resumes {setting : Step.Setting} {first s : Session} {episodes : List Episode}
    (hd : setting.flow.defects = []) (hmax : 0 < setting.policy.maxSteps)
    (hflow : first.flowId = setting.flow.id) (h : Conversation setting first episodes s) :
    (∀ e ∈ episodes, e.ending.Leaves fun s r => Agrees s r ∧
        (r.state = .waitingInput ∨ r.state = .timeout →
          ∃ n ∈ setting.flow.nodes, n.id = s.currentNodeId)) ∧
      episodes.IsChain (Follows setting.flow) := by
  constructor
  · intro e he
    have hrest := h.rests hd e he
    obtain ⟨stops, left⟩ := e
    cases left with
    | abandoned s => trivial
    | finished s r =>
        refine ⟨hrest.agrees, fun hw => ?_⟩
        obtain ⟨n, hn, hid⟩ := hrest.place (hrest.agrees.waits.mpr hw)
        exact ⟨n, (Flow.node?_eq_some hn.node).1, hid.symm⟩
  · induction h with
    | opening => exact .nil
    | @turn past s stops e h now message timeout t ih =>
        refine List.isChain_append.mpr ⟨ih, .singleton _, ?_⟩
        intro last hlast next hnext
        cases hnext
        obtain rfl := h.last hlast
        exact follows_of_tours hd hmax (h.rests hd last (List.mem_of_getLast? hlast))
          (h.flowId.trans hflow) (tours_of_ends t)

/-- The greeting, interrupted in its pause. -/
def greetingHalted : List Stop × Ending :=
  ((tour greetingSetting newYear newcomer (some "hi") none).play
    (cutShort silent 0 .deadline) ⟨(), (), 3⟩).1

/-- The next turn of the greeting that was interrupted. -/
def greetingResumed : List Stop × Ending :=
  ((tour greetingSetting newYear greetingHalted.2.session none none).play
    (undisturbed silent 0) ()).1

theorem conversation_resumes_greeting :
    ∃ episodes s, Conversation greetingSetting newcomer episodes s ∧
      (greetingSetting.flow.defects = [] ∧ 0 < greetingSetting.policy.maxSteps ∧
        newcomer.flowId = greetingSetting.flow.id) ∧
      episodes.map (fun e => e.ending.result?.map fun r => (r.state, r.currentNodeId)) =
        [some (.timeout, "pause"), some (.waitingInput, "name")] ∧
      (∀ e ∈ episodes, e.ending.Leaves fun s r => Agrees s r ∧
        (r.state = .waitingInput ∨ r.state = .timeout →
          ∃ n ∈ greetingSetting.flow.nodes, n.id = s.currentNodeId)) ∧
      episodes.IsChain (Follows greetingSetting.flow) := by
  have hd : greetingSetting.flow.defects = [] := by decide +kernel
  have hmax : 0 < greetingSetting.policy.maxSteps := by decide
  have h₁ : Conversation greetingSetting newcomer [⟨greetingHalted.1, greetingHalted.2⟩]
      greetingHalted.2.session :=
    Conversation.opening.turn newYear (some "hi") none (Program.ends_play _ _ _)
  have h₂ : Conversation greetingSetting newcomer
      [⟨greetingHalted.1, greetingHalted.2⟩, ⟨greetingResumed.1, greetingResumed.2⟩]
      greetingResumed.2.session :=
    h₁.turn newYear none none (Program.ends_play _ _ _)
  exact ⟨_, _, h₂, ⟨hd, hmax, rfl⟩, by decide +kernel, conversation_resumes hd hmax rfl h₂⟩

end Parley.Turn
