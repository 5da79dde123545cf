import Parley.Proofs.Turn.Finish

/-!
# A conversation as a walk

Under any flow, with defects or without, a conversation walks the graph.  Within a turn it goes from
node to node along edges (`Stop.GoesAlong`); a new turn begins at the start node, or where the turn
before it stopped.

A session keeps the id of the node where it stands and not the node.  Nodes are found by id, the
first of several, so every node that a turn comes to but one is the node found under its own id: the
start node is found by its kind, and an earlier node may have its id (`Flow.Reaches`).  A turn that
stopped there is taken up at the other node (`start_node_taken_over`).
-/

namespace Parley

namespace Flow

/-- A turn can come to the node: it is the start node, or the one found under its id. -/
def Reaches (flow : Flow) (n : Node) : Prop := flow.startNode? = some n ∨ flow.node? n.id = some n

theorem Reaches.of_node? {flow : Flow} {id : String} {n : Node} (h : flow.node? id = some n) :
    flow.Reaches n := by
  obtain ⟨-, rfl⟩ := node?_eq_some h
  exact .inr h

/-- For a handle that an edge of the node has, the way out is the first such edge. -/
theorem find?_of_wayOut? {f : Flow} {id handle : String} {edge : Edge} (hne : handle ≠ "")
    (hhas : f.hasHandle id (some handle) = true) (h : f.wayOut? id handle = some edge) :
    f.edges.find? (fun e => e.source == id && e.sourceHandle == some handle) = some edge := by
  obtain ⟨e, he, hhandle⟩ := List.any_eq_true.mp hhas
  have hfilter : (f.outgoing id).find? (·.sourceHandle == some handle) =
      f.edges.find? fun e => e.source == id && e.sourceHandle == some handle := by
    rw [outgoing, List.find?_filter]
    simp only [Bool.decide_and, Bool.decide_eq_true]
  rw [wayOut?, if_neg hne, hfilter] at h
  cases hf : f.edges.find? fun e => e.source == id && e.sourceHandle == some handle with
  | none => exact absurd hhandle (List.find?_eq_none.mp (hfilter.trans hf) e he)
  | some first =>
      rw [hf, Option.some_or] at h
      exact h

end Flow

namespace Turn

variable {flow : Flow} {f : Frame}

/-! ### Within a turn -/

/-- The turn went on from a stop to the next one along the edge: the first of all that have the
handle of the effect, where one of the node's edges has it. -/
structure Stop.GoesAlong (flow : Flow) (st next : Stop) (effect : Step.Effect) (edge : Flow.Edge) :
    Prop where
  fate : st.fate = .over (.done effect)
  mem : edge ∈ flow.edges
  source : edge.source = st.node.id
  target : flow.node? edge.target = some next.node
  handle (h : effect.handle ≠ "") (hh : flow.hasHandle st.node.id (some effect.handle) = true) :
    flow.edges.find? (fun e => e.source == st.node.id && e.sourceHandle == some effect.handle) =
      some edge

/-- Each stop but the first is at the end of an edge of the stop before it. -/
def Walks (flow : Flow) (stops : List Stop) : Prop :=
  stops.IsChain fun st next => ∃ effect edge, st.GoesAlong flow next effect edge

/-- A step after which the turn goes on leads along an edge. -/
theorem goesAlong_of_settles {w w' : Walk} {m : Flow.Node} {st next : Stop} {o : Step.Outcome}
    (hf : st.fate = .over o) (ho : (Step.run f.setting st.node st.session st.answer).Ends o)
    (hs : Settles f w st.node o (.inr (w', m))) (hnext : next.node = m) :
    ∃ effect edge, st.GoesAlong f.setting.flow next effect edge := by
  subst hnext
  cases hs with
  | @proceeds effect id _ hc hne hm =>
      cases Step.leaves_of_ends ho with
      | stops h => rcases h with h | ⟨_, h⟩ <;> cases hc.symm.trans h
      | ends _ h => cases hc.symm.trans h
      | leads h =>
          have hid : (f.setting.flow.successor? st.node.id effect.handle).map (·.id) = some id :=
            Step.Course.proceed.inj (h.symm.trans hc)
          obtain ⟨m, hsucc, rfl⟩ := Option.map_eq_some_iff.mp hid
          obtain ⟨edge, hedge, hway, htarget⟩ := Flow.successor?_eq_some hsucc
          obtain ⟨hmem, hsource⟩ := List.mem_filter.mp hedge
          -- the id that was handed on finds the node that the edge leads to
          have htold : f.setting.flow.node? m.id = some m :=
            (Flow.node?_eq_some htarget).2 ▸ htarget
          obtain rfl : m = next.node := Option.some.inj (htold.symm.trans hm)
          exact ⟨effect, edge, hf, hmem, eq_of_beq hsource, htarget,
            fun hne hhas => Flow.find?_of_wayOut? hne hhas hway⟩

/-- The stops of a tour walk the graph, at nodes that a turn can come to. -/
theorem walks_of_goes {left : Nat} {w : Walk} {n : Flow.Node} {resumed : Bool}
    {answer : Option String} {stops : List Stop} {e : Ending}
    (h : Goes f left w n resumed answer stops e) (hn : f.setting.flow.Reaches n) :
    Walks f.setting.flow stops ∧ ∀ st ∈ stops, f.setting.flow.Reaches st.node := by
  induction h with
  | exhausted => exact ⟨List.IsChain.nil, fun st hst => by cases hst⟩
  | spared | deserted | cut | ended =>
      refine ⟨List.IsChain.singleton _, fun st hst => ?_⟩
      obtain rfl := List.mem_singleton.mp hst
      exact hn
  | @onward _ w n resumed answer _ _ m _ _ ho hs t ih =>
      have hm : f.setting.flow.Reaches m := by
        cases hs with
        | proceeds _ _ hm => exact .of_node? hm
      obtain ⟨hwalks, hreaches⟩ := ih hm
      constructor
      · exact hwalks.cons fun next hnext =>
          goesAlong_of_settles rfl ho hs (congrArg Stop.node (t.head hnext))
      · intro st hst
        rcases List.mem_cons.mp hst with rfl | hst
        · exact hn
        · exact hreaches st hst

/-! ### Where a turn stops -/

/-- The stop at which a turn left the session: the last one, or, when the turn was abandoned there,
the one before it. -/
def Episode.halt? (e : Episode) : Option Stop :=
  match e.ending with
  | .finished _ _ => e.stops.getLast?
  | .abandoned _ => e.stops.dropLast.getLast?

theorem Episode.mem_of_halt? {e : Episode} {st : Stop} (h : e.halt? = some st) : st ∈ e.stops := by
  unfold halt? at h
  split at h
  · exact List.mem_of_getLast? h
  · exact List.dropLast_subset _ (List.mem_of_getLast? h)

/-- A turn that went on halts where the rest of it does, and else at its first stop. -/
theorem halt?_cons {left : Nat} {w : Walk} {n : Flow.Node} {resumed : Bool} {answer : Option String}
    {stops : List Stop} {e : Ending} (h : Goes f left w n resumed answer stops e) (st : Stop) :
    (Episode.mk (st :: stops) e).halt? = some (((Episode.mk stops e).halt?).getD st) := by
  cases e with
  | finished s r => exact List.getLast?_cons
  | abandoned s =>
      change (st :: stops).dropLast.getLast? = some (stops.dropLast.getLast?.getD st)
      rw [List.dropLast_cons_of_ne_nil h.ne_nil_of_abandoned, List.getLast?_cons]

/-- The session stands where the turn left it. -/
theorem currentNodeId_of_goes {left : Nat} {w : Walk} {n : Flow.Node} {resumed : Bool}
    {answer : Option String} {stops : List Stop} {e : Ending}
    (h : Goes f left w n resumed answer stops e) : e.session.currentNodeId =
      ((Episode.mk stops e).halt?.map (·.node.id)).getD w.session.currentNodeId := by
  induction h with
  | exhausted | spared | deserted => rfl
  | @cut _ _ _ _ _ i => cases i <;> rfl
  | ended w n resumed answer ho hs => cases hs <;> rfl
  | onward w n resumed answer ho hs t ih =>
      rw [halt?_cons t, ih]
      cases hs with
      | proceeds => cases (Episode.mk _ _).halt? <;> rfl

theorem Enters.currentNodeId {session opened : Session} {answer given : Option String}
    {n : Flow.Node} (h : Enters flow session answer n given opened) :
    opened.currentNodeId = session.currentNodeId := by
  cases h <;> rfl

theorem currentNodeId_of_tours {setting : Step.Setting} {now : Calendar.Moment} {session : Session}
    {message : Option String} {stops : List Stop} {e : Ending}
    (h : Tours setting now session message stops e) : e.session.currentNodeId =
      ((Episode.mk stops e).halt?.map (·.node.id)).getD session.currentNodeId := by
  have hb := currentNodeId_begun now session message
  cases h with
  | refused => rfl
  | lost => exact hb
  | underway f _ _ he t =>
      rw [currentNodeId_of_goes t, (enters_of_entry he).currentNodeId, hb]

/-- A turn begins at the start node or at the node under the id where the session stands, and walks
the graph from there. -/
theorem walks_of_tours {setting : Step.Setting} {now : Calendar.Moment} {session : Session}
    {message : Option String} {stops : List Stop} {e : Ending}
    (h : Tours setting now session message stops e) :
    Walks setting.flow stops ∧ (∀ st ∈ stops, setting.flow.Reaches st.node) ∧
      ∀ st, stops.head? = some st → setting.flow.startNode? = some st.node ∨
        setting.flow.node? session.currentNodeId = some st.node := by
  cases h with
  | refused | lost => exact ⟨List.IsChain.nil, fun st hst => (by cases hst),
      fun st hst => (by cases hst)⟩
  | @underway f n answer opened _ _ _ hf he t =>
      subst hf
      have hfound : f.setting.flow.startNode? = some n ∨
          f.setting.flow.node? session.currentNodeId = some n := by
        cases enters_of_entry he with
        | again _ hn => exact .inr (currentNodeId_begun now session message ▸ hn)
        | anew _ hn => exact .inl hn
      have hreaches : f.setting.flow.Reaches n := hfound.elim .inl .of_node?
      obtain ⟨hwalks, hall⟩ := walks_of_goes t hreaches
      refine ⟨hwalks, hall, fun st hst => ?_⟩
      rw [t.head hst]
      exact hfound

/-! ### All turns of a session -/

/-- The stop at which the turns of a session left it: that of the last turn that had one. -/
def halt? (past : List Episode) : Option Stop := (past.filterMap Episode.halt?).getLast?

theorem halt?_concat (past : List Episode) (e : Episode) :
    halt? (past ++ [e]) = e.halt?.or (halt? past) := by
  unfold halt?
  rw [List.filterMap_append, List.getLast?_append]
  cases he : e.halt? <;> simp [he]

theorem Conversation.currentNodeId {setting : Step.Setting} {first s : Session}
    {episodes : List Episode} (h : Conversation setting first episodes s) :
    s.currentNodeId = ((halt? episodes).map (·.node.id)).getD first.currentNodeId := by
  induction h with
  | opening => rfl
  | turn h now message timeout t ih =>
      rw [currentNodeId_of_tours (tours_of_ends t), halt?_concat, ih]
      cases (Episode.mk _ _).halt? <;> rfl

theorem Conversation.reaches {setting : Step.Setting} {first s : Session} {episodes : List Episode}
    (h : Conversation setting first episodes s) :
    ∀ e ∈ episodes, ∀ st ∈ e.stops, setting.flow.Reaches st.node := by
  induction h with
  | opening => exact fun e he => by cases he
  | turn h now message timeout t ih =>
      intro e he
      rcases List.mem_append.mp he with he | he
      · exact ih e he
      · obtain rfl := List.mem_singleton.mp he
        exact (walks_of_tours (tours_of_ends t)).2.1

/-- A turn of a conversation is one of the session that the turns before it left. -/
theorem Conversation.split {setting : Step.Setting} {first s : Session} {past later : List Episode}
    {e : Episode} (h : Conversation setting first (past ++ e :: later) s) :
    ∃ before now message timeout, Conversation setting first past before ∧
      (tour setting now before message timeout).Ends (e.stops, e.ending) := by
  generalize hall : past ++ e :: later = episodes at h
  induction h generalizing later with
  | opening => exact absurd hall (List.append_ne_nil_of_right_ne_nil _ (List.cons_ne_nil _ _))
  | @turn past' _ stops e' h now message timeout t ih =>
      rcases List.eq_nil_or_concat later with rfl | ⟨front, final, rfl⟩
      · obtain ⟨rfl, he⟩ := List.append_inj' hall rfl
        obtain rfl := List.head_eq_of_cons_eq he
        exact ⟨_, now, message, timeout, h, t⟩
      · have hsplit : (past ++ e :: front) ++ [final] = past' ++ [⟨stops, e'⟩] := by
          simpa using hall
        exact ih (List.append_inj' hsplit rfl).1

/-- **Every conversation is a walk of the graph.**  Under any flow, with defects or without,
whatever the session, the messages, the answers of the collaborators and the interruptions: within a
turn each node after the first is at the end of an edge of the node before it, and where one of that
node's edges has the handle that its step routed by, of the first of them as they were drawn.  The
first node of a turn is the start node or the node where the turn before it stopped; only, where
that was the start node and an earlier node has its id, it is the earlier node. -/
theorem conversation_walks_the_graph {setting : Step.Setting} {first s : Session}
    {past later : List Episode} {e : Episode}
    (h : Conversation setting first (past ++ e :: later) s) :
    Walks setting.flow e.stops ∧ ∀ st, e.stops.head? = some st →
      setting.flow.startNode? = some st.node ∨
      match halt? past with
      | none => setting.flow.node? first.currentNodeId = some st.node
      | some last => st.node = last.node ∨
          setting.flow.startNode? = some last.node ∧
              setting.flow.node? last.node.id = some st.node := by
  obtain ⟨before, now, message, timeout, hpast, t⟩ := h.split
  obtain ⟨hwalks, -, hfirst⟩ := walks_of_tours (tours_of_ends t)
  refine ⟨hwalks, fun st hst => (hfirst st hst).imp_right fun hfound => ?_⟩
  rw [hpast.currentNodeId] at hfound
  cases hlast : halt? past with
  | none =>
      rw [hlast] at hfound
      exact hfound
  | some last =>
      rw [hlast] at hfound
      obtain ⟨episode, hmem, hhalt⟩ := List.mem_filterMap.mp (List.mem_of_getLast? hlast)
      rcases hpast.reaches episode hmem last (Episode.mem_of_halt? hhalt) with hstart | hnode
      · exact .inr ⟨hstart, hfound⟩
      · exact .inl (Option.some.inj (hfound.symm.trans hnode))

/-- The greeting is interrupted in its pause, and goes on there to the question. -/
theorem conversation_walks_the_graph_greeting : ∃ past e s,
    Conversation greetingSetting newcomer (past ++ [e]) s ∧
      (halt? past).map (·.node.id) = some "pause" ∧
      e.stops.map (·.node.id) = ["pause", "name"] ∧
      Walks greetingSetting.flow e.stops ∧ ∀ st, e.stops.head? = some st →
        greetingSetting.flow.startNode? = some st.node ∨
        match halt? past with
        | none => greetingSetting.flow.node? newcomer.currentNodeId = some st.node
        | some last => st.node = last.node ∨ greetingSetting.flow.startNode? = some last.node ∧
            greetingSetting.flow.node? last.node.id = some st.node := by
  have h₁ : Conversation greetingSetting newcomer [⟨greetingHalted.1, greetingHalted.2⟩]
      greetingHalted.2.session :=
    Conversation.opening.turn newYear (some "hi") none (Program.ends_play _ _ _)
  have h₂ : Conversation greetingSetting newcomer
      ([⟨greetingHalted.1, greetingHalted.2⟩] ++ [⟨greetingResumed.1, greetingResumed.2⟩])
      greetingResumed.2.session :=
    h₁.turn newYear none none (Program.ends_play _ _ _)
  exact ⟨_, _, _, h₂, by decide +kernel, by decide +kernel, conversation_walks_the_graph h₂⟩

/-! ### A start node that shares its id -/

/-- A flow in which a message has the id of the start node. -/
def shared : Flow :=
  { id := "greeting"
    nodes := [{ id := "start", block := .message { message := "Welcome." } },
      { id := "start", block := .start {} }, { id := "bye", block := .ending {} }]
    edges := [{ source := "start", target := "bye" }] }

/-- The flow under the standard policy, with no collaborators. -/
def sharedSetting : Step.Setting := ⟨shared, {}, {}⟩

/-- A turn that is cancelled before its first node. -/
def sharedHalted : List Stop × Ending :=
  ((tour sharedSetting newYear newcomer (some "hi") none).play
    (cutShort silent 0 .cancelled) ⟨(), (), 0⟩).1

/-- The turn after it. -/
def sharedResumed : List Stop × Ending :=
  ((tour sharedSetting newYear sharedHalted.2.session (some "hi") none).play
    (undisturbed silent 0) ()).1

/-- **The turn after one that stopped at the start node may begin at neither.**  The message that
has its id is taken up in its place. -/
theorem start_node_taken_over : ∃ e e' s st st', Conversation sharedSetting newcomer [e, e'] s ∧
    e.stops.getLast? = some st ∧ e'.stops.head? = some st' ∧
    sharedSetting.flow.startNode? = some st.node ∧ st'.node ≠ st.node := by
  have h₁ : Conversation sharedSetting newcomer [⟨sharedHalted.1, sharedHalted.2⟩]
      sharedHalted.2.session :=
    Conversation.opening.turn newYear (some "hi") none (Program.ends_play _ _ _)
  have h₂ : Conversation sharedSetting newcomer
      [⟨sharedHalted.1, sharedHalted.2⟩, ⟨sharedResumed.1, sharedResumed.2⟩]
      sharedResumed.2.session :=
    h₁.turn newYear (some "hi") none (Program.ends_play _ _ _)
  have hstart : sharedHalted.1.getLast?.map (·.node) = shared.startNode? := rfl
  have hkinds : shared.startNode?.map Flow.Node.kind = some "start" ∧
      sharedResumed.1.head?.map (·.node.kind) = some "message" := by decide +kernel
  obtain ⟨st', hst', hkind'⟩ := Option.map_eq_some_iff.mp hkinds.2
  cases hst : sharedHalted.1.getLast? with
  | none =>
      rw [hst] at hstart
      cases hstart
  | some st =>
      rw [hst] at hstart
      rw [← hstart] at hkinds
      refine ⟨_, _, _, st, st', h₂, hst, hst', hstart.symm, fun heq => ?_⟩
      rw [heq, Option.some.inj hkinds.1] at hkind'
      simp at hkind'

end Turn
end Parley
