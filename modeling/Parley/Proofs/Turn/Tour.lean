import Parley.Proofs.Program
import Parley.Turn.Run

/-!
# The tour of a turn

A turn goes from node to node and keeps no record of where it has been but the session's
history, which is bounded.  `tour` is the program of a turn that also notes its stops: the nodes
the turn came to, in order, each with the session it found, the message it was handed and its
fate.  With the stops forgotten it is the turn (`run_eq_tour`), so an ending of a turn is the
ending of one of its tours (`ends_run_iff`).

`Goes` says what a tour does at each node, one constructor for each way on: the steps are used
up, the turn is cancelled or abandoned before the node is run, it is interrupted while the node
runs, the node ends the turn, or the turn goes on.  Every tour goes that way
(`goes_of_ends`), so a property of all turns is an induction over `Goes`.
-/

namespace Parley.Turn

/-- What became of a node that a turn came to. -/
inductive Fate where
  /-- The turn ended before the node was run. -/
  | spared
  /-- The turn was interrupted while the node ran. -/
  | cut (i : Interruption)
  /-- The node ran to its outcome. -/
  | over (r : Step.Outcome)

/-- A node that a turn came to. -/
structure Stop where
  node : Flow.Node
  /-- The turn took the node up where an earlier one had stopped. -/
  resumed : Bool
  /-- The session as the node found it. -/
  session : Session
  /-- The message that the node was handed. -/
  answer : Option String
  fate : Fate

/-- The session and the result of a turn have the property; an abandoned turn has no result. -/
def Ending.Leaves (P : Session → Result → Prop) : Ending → Prop
  | .finished s r => P s r
  | .abandoned _ => True

/-- One more step is counted. -/
def Walk.stepped (w : Walk) : Walk := { w with steps := w.steps + 1 }

/-- `advance`, which notes its stops. -/
def travel (f : Frame) : Nat → Walk → Flow.Node → Bool → Option String →
    TurnProgram (List Stop × Ending)
  | 0, w, n, _, _ => .done ([], f.exhaust w n)
  | left + 1, w, n, resumed, answer =>
    let stop := Stop.mk n resumed w.session answer
    .request .enter fun
    | .abandoned => .done ([stop .spared], .abandoned w.session)
    | .cancelled => .done ([stop .spared], f.abort w n Interruption.cancelled.reason)
    | .go => (step f w.session n answer).bind fun
      | .error i => .done ([stop (.cut i)], f.interrupt w.stepped n i)
      | .ok outcome =>
        match f.settle w.stepped n outcome with
        | .inl ending => .done ([stop (.over outcome)], ending)
        | .inr (w, m) => (travel f left w m false none).bind fun t =>
            .done (stop (.over outcome) :: t.1, t.2)

/-- A turn of the session takes up the node it stands at. -/
def takesUp (session : Session) : Bool := session.isWaiting && session.currentNodeId != ""

/-- The variables that a turn begins with: the message is noted unless it is blank. -/
def heard (vars : Fields) (message : Option String) : Fields :=
  match Step.givenAnswer message with
  | some text => vars.put "last_user_message" (.text text)
  | none => vars

/-- The session with one more turn. -/
def counted (now : Calendar.Moment) (session : Session) : Session :=
  { session with turnCount := session.turnCount + 1, lastActivityAt := now }

/-- The session of a turn before its first node: the turn is counted, the message noted. -/
def begun (now : Calendar.Moment) (session : Session) (message : Option String) : Session :=
  noteMessage (counted now session) (Step.givenAnswer message)

theorem begun_eq (now : Calendar.Moment) (session : Session) (message : Option String) :
    begun now session message =
      { counted now session with vars := heard session.vars message } := by
  unfold begun heard
  cases Step.givenAnswer message <;> rfl

/-- A turn begins with the message in the variables. -/
theorem vars_begun (now : Calendar.Moment) (session : Session) (message : Option String) :
    (begun now session message).vars = heard session.vars message :=
  congrArg Session.vars (begun_eq now session message)

theorem status_begun (now : Calendar.Moment) (session : Session) (message : Option String) :
    (begun now session message).status = session.status := by
  rw [begun_eq]
  rfl

theorem currentNodeId_begun (now : Calendar.Moment) (session : Session) (message : Option String) :
    (begun now session message).currentNodeId = session.currentNodeId := by
  rw [begun_eq]
  rfl

/-- `run`, which notes its stops. -/
def tour (setting : Step.Setting) (now : Calendar.Moment) (session : Session)
    (message : Option String) (timeout : Option Binary64) : TurnProgram (List Stop × Ending) :=
  .request .time fun start =>
    let f : Frame := ⟨setting, now, deadlineOf setting.policy timeout start⟩
    if session.flowId ≠ setting.flow.id then
      .done ([], f.fail { session := counted now session } .error
        ("session belongs to flow '" ++ session.flowId ++ "', not '" ++ setting.flow.id ++ "'"))
    else
      let session := begun now session message
      match entry setting.flow session (Step.givenAnswer message) with
      | .error e => .done ([], f.fail { session := session } .error e)
      | .ok (n, answer, opened) =>
        travel f setting.policy.maxSteps.toNat { session := opened } n (takesUp session) answer

/-! ### The turn without its stops -/

/-- A walk is a travel without its stops. -/
theorem advance_eq_travel (f : Frame) (left : Nat) (w : Walk) (n : Flow.Node) (resumed : Bool)
    (answer : Option String) :
    advance f left w n answer = (travel f left w n resumed answer).bind fun t => .done t.2 := by
  induction left generalizing w n resumed answer with
  | zero => rfl
  | succ left ih =>
      refine congrArg (Program.request Op.enter) (funext fun entry => ?_)
      cases entry with
      | abandoned | cancelled => rfl
      | go =>
          refine Eq.trans (congrArg (Program.bind _) (funext fun r => ?_))
            (Program.bind_assoc _ _ _).symm
          cases r with
          | error i => rfl
          | ok outcome =>
              simp only [Walk.stepped]
              cases f.settle _ n outcome with
              | inl ending => rfl
              | inr next =>
                  dsimp only
                  rw [Program.bind_assoc]
                  exact ih next.1 next.2 false none

/-- A turn is its tour with the stops forgotten. -/
theorem run_eq_tour (setting : Step.Setting) (now : Calendar.Moment) (session : Session)
    (message : Option String) (timeout : Option Binary64) :
    run setting now session message timeout =
      (tour setting now session message timeout).bind fun t => .done t.2 := by
  refine congrArg (Program.request Op.time) (funext fun start => ?_)
  dsimp only
  split
  · rfl
  · simp only [begun, counted]
    cases entry setting.flow _ (Step.givenAnswer message) with
    | error e => rfl
    | ok first =>
        obtain ⟨n, answer, opened⟩ := first
        exact advance_eq_travel _ _ _ _ _ _

/-- A turn ends as its tour does. -/
theorem ends_run_iff {setting : Step.Setting} {now : Calendar.Moment} {session : Session}
    {message : Option String} {timeout : Option Binary64} {e : Ending} :
    (run setting now session message timeout).Ends e ↔
      ∃ stops, (tour setting now session message timeout).Ends (stops, e) := by
  rw [run_eq_tour, Program.ends_bind_iff]
  constructor
  · rintro ⟨⟨stops, e'⟩, h, he⟩
    obtain rfl := Program.ends_done_iff.mp he
    exact ⟨stops, h⟩
  · rintro ⟨stops, h⟩
    exact ⟨(stops, e), h, .done e⟩

/-! ### What a tour does -/

/-- What follows from the outcome of a node: the turn ends, or it goes on with what was committed.
-/
inductive Settles (f : Frame) (w : Walk) (n : Flow.Node) :
    Step.Outcome → Ending ⊕ (Walk × Flow.Node) → Prop where
  | failed (error : String) : Settles f w n (.failed error) (.inl (f.failStep w n error))
  | waits {e : Step.Effect} (hc : e.course = .wait) : Settles f w n (.done e)
      (.inl (f.finish ((f.commit w n e).become .waitingInput) .waitingInput "" none))
  | handsOff {e : Step.Effect} {h : Handoff} (hc : e.course = .handoff h) : Settles f w n (.done e)
      (.inl (f.finish ((f.commit w n e).become .handoff) .handoff "" (some h)))
  | completes {e : Step.Effect}
      (hc : e.course = .finish ∨ e.course = .proceed none ∨ e.course = .proceed (some "")) :
      Settles f w n (.done e)
        (.inl (f.finish ((f.commit w n e).become .completed) .completed "" none))
  | strays {e : Step.Effect} {next : String} (hc : e.course = .proceed (some next))
      (hm : f.setting.flow.node? next = none) : Settles f w n (.done e)
      (.inl (f.fail (f.commit w n e) .error
        ("node '" ++ n.id ++ "' routes to missing node '" ++ next ++ "'")))
  | proceeds {e : Step.Effect} {next : String} {m : Flow.Node}
      (hc : e.course = .proceed (some next)) (hn : next ≠ "")
      (hm : f.setting.flow.node? next = some m) :
      Settles f w n (.done e) (.inr (f.commit w n e, m))

/-- An outcome is settled by one of the rules. -/
theorem settles_settle (f : Frame) (w : Walk) (n : Flow.Node) (r : Step.Outcome) :
    Settles f w n r (f.settle w n r) := by
  cases r with
  | failed error => exact .failed error
  | done e =>
      cases hc : e.course with
      | wait => simpa [Frame.settle, Frame.after, hc] using Settles.waits hc
      | handoff h => simpa [Frame.settle, Frame.after, hc] using Settles.handsOff hc
      | finish => simpa [Frame.settle, Frame.after, hc] using Settles.completes (.inl hc)
      | proceed next =>
          cases next with
          | none => simpa [Frame.settle, Frame.after, hc] using Settles.completes (.inr (.inl hc))
          | some next =>
              by_cases hn : next = ""
              · subst hn
                simpa [Frame.settle, Frame.after, hc] using Settles.completes (.inr (.inr hc))
              · cases hm : f.setting.flow.node? next with
                | none => simpa [Frame.settle, Frame.after, hc, hn, hm] using Settles.strays hc hm
                | some m =>
                    simpa [Frame.settle, Frame.after, hc, hn, hm] using Settles.proceeds hc hn hm

/-- What a tour does from a node on, with so many steps left. -/
inductive Goes (f : Frame) : Nat → Walk → Flow.Node → Bool → Option String → List Stop → Ending →
    Prop where
  | exhausted (w : Walk) (n : Flow.Node) (resumed : Bool) (answer : Option String) :
      Goes f 0 w n resumed answer [] (f.exhaust w n)
  | spared {left : Nat} (w : Walk) (n : Flow.Node) (resumed : Bool) (answer : Option String) :
      Goes f (left + 1) w n resumed answer [⟨n, resumed, w.session, answer, .spared⟩]
        (f.abort w n Interruption.cancelled.reason)
  | deserted {left : Nat} (w : Walk) (n : Flow.Node) (resumed : Bool) (answer : Option String) :
      Goes f (left + 1) w n resumed answer [⟨n, resumed, w.session, answer, .spared⟩]
        (.abandoned w.session)
  | cut {left : Nat} (w : Walk) (n : Flow.Node) (resumed : Bool) (answer : Option String)
      {i : Interruption} (h : (Step.run f.setting n w.session answer).Quiet → i = .abandoned) :
      Goes f (left + 1) w n resumed answer [⟨n, resumed, w.session, answer, .cut i⟩]
        (f.interrupt w.stepped n i)
  | ended {left : Nat} (w : Walk) (n : Flow.Node) (resumed : Bool) (answer : Option String)
      {r : Step.Outcome} {e : Ending} (h : (Step.run f.setting n w.session answer).Ends r)
      (hs : Settles f w.stepped n r (.inl e)) :
      Goes f (left + 1) w n resumed answer [⟨n, resumed, w.session, answer, .over r⟩] e
  | onward {left : Nat} (w : Walk) (n : Flow.Node) (resumed : Bool) (answer : Option String)
      {r : Step.Outcome} {w' : Walk} {m : Flow.Node} {stops : List Stop} {e : Ending}
      (h : (Step.run f.setting n w.session answer).Ends r)
      (hs : Settles f w.stepped n r (.inr (w', m))) (t : Goes f left w' m false none stops e) :
      Goes f (left + 1) w n resumed answer (⟨n, resumed, w.session, answer, .over r⟩ :: stops) e

/-- A guarded step program ends as the program does, or with an interruption of one of its
requests. -/
theorem ends_guarded {α : Type} {deadline : Option Rat} {p : Step.StepProgram α}
    {r : Except Interruption α} (h : (guarded deadline p).Ends r) :
    (∃ a, r = .ok a ∧ p.Ends a) ∨ ∃ i, r = .error i ∧ ¬ p.Quiet := by
  induction p with
  | done a =>
      obtain rfl := Program.ends_done_iff.mp h
      exact .inl ⟨a, rfl, .done a⟩
  | request op next ih =>
      rw [guarded] at h
      obtain ⟨reply, h⟩ := Program.ends_request_iff.mp h
      cases reply with
      | error i =>
          obtain rfl := Program.ends_done_iff.mp h
          exact .inr ⟨i, rfl, fun hq => hq⟩
      | ok reply =>
          rcases ih reply h with ⟨a, rfl, ha⟩ | ⟨i, rfl, -⟩
          · exact .inl ⟨a, rfl, .request reply ha⟩
          · exact .inr ⟨i, rfl, fun hq => hq⟩

/-- A step ends with an outcome of its node, or is interrupted; a node that asks nothing can only be
abandoned. -/
theorem ends_step {f : Frame} {session : Session} {n : Flow.Node} {answer : Option String}
    {r : Except Interruption Step.Outcome} (h : (step f session n answer).Ends r) :
    (∃ o, r = .ok o ∧ (Step.run f.setting n session answer).Ends o) ∨
      ∃ i, r = .error i ∧ ((Step.run f.setting n session answer).Quiet → i = .abandoned) := by
  obtain ⟨r', hg, h⟩ := Program.ends_bind_iff.mp h
  rcases ends_guarded hg with ⟨o, rfl, ho⟩ | ⟨i, rfl, hi⟩
  · obtain ⟨left, h⟩ := Program.ends_request_iff.mp h
    cases left with
    | true =>
        obtain rfl := Program.ends_done_iff.mp h
        exact .inr ⟨.abandoned, rfl, fun _ => rfl⟩
    | false =>
        obtain rfl := Program.ends_done_iff.mp h
        exact .inl ⟨o, rfl, ho⟩
  · obtain rfl := Program.ends_done_iff.mp h
    exact .inr ⟨i, rfl, fun hq => absurd hq hi⟩

/-- **Every tour goes so.** -/
theorem goes_of_ends {f : Frame} {left : Nat} {w : Walk} {n : Flow.Node} {resumed : Bool}
    {answer : Option String} {stops : List Stop} {e : Ending}
    (h : (travel f left w n resumed answer).Ends (stops, e)) :
    Goes f left w n resumed answer stops e := by
  induction left generalizing w n resumed answer stops with
  | zero =>
      cases Program.ends_done_iff.mp h
      exact .exhausted w n resumed answer
  | succ left ih =>
      obtain ⟨entry, h⟩ := Program.ends_request_iff.mp h
      cases entry with
      | abandoned =>
          cases Program.ends_done_iff.mp h
          exact .deserted w n resumed answer
      | cancelled =>
          cases Program.ends_done_iff.mp h
          exact .spared w n resumed answer
      | go =>
          obtain ⟨r, hr, h⟩ := Program.ends_bind_iff.mp h
          rcases ends_step hr with ⟨o, rfl, ho⟩ | ⟨i, rfl, hi⟩
          · have hs := settles_settle f w.stepped n o
            dsimp only at h
            split at h
            · next he =>
              cases Program.ends_done_iff.mp h
              exact .ended w n resumed answer ho (he ▸ hs)
            · next w' m he =>
              obtain ⟨⟨rest, e'⟩, ht, h⟩ := Program.ends_bind_iff.mp h
              cases Program.ends_done_iff.mp h
              exact .onward w n resumed answer ho (he ▸ hs) (ih ht)
          · cases Program.ends_done_iff.mp h
            exact .cut w n resumed answer hi

/-- Where a turn begins: again at the node where the session waits, which is handed the answer, or
anew at the start. -/
inductive Enters (flow : Flow) (session : Session) (answer : Option String) :
    Flow.Node → Option String → Session → Prop where
  | again {n : Flow.Node} (ht : takesUp session = true)
      (hn : flow.node? session.currentNodeId = some n) : Enters flow session answer n answer session
  | anew {n : Flow.Node} (ht : takesUp session = false) (hn : flow.startNode? = some n) :
      Enters flow session answer n none { session with status := .active }

/-- A flow is entered by one of the rules. -/
theorem enters_of_entry {flow : Flow} {session opened : Session} {answer given : Option String}
    {n : Flow.Node} (h : entry flow session answer = .ok (n, given, opened)) :
    Enters flow session answer n given opened := by
  unfold entry at h
  split at h
  · next ht =>
    split at h
    · next hn =>
      cases h
      exact .again ht hn
    · cases h
  · next ht =>
    split at h
    · next hn =>
      cases h
      exact .anew (Bool.eq_false_iff.mpr ht) hn
    · cases h

/-- The node where a turn begins finds the variables that the turn began with. -/
theorem Enters.vars {flow : Flow} {session opened : Session} {answer given : Option String}
    {n : Flow.Node} (h : Enters flow session answer n given opened) :
    opened.vars = session.vars := by
  cases h <;> rfl

/-- Without a message no node is handed one. -/
theorem Enters.given {flow : Flow} {session opened : Session} {given : Option String}
    {n : Flow.Node} (h : Enters flow session none n given opened) : given = none := by
  cases h <;> rfl

/-- What the tour of a turn does: it is turned away, finds no node to begin at, or sets out. -/
inductive Tours (setting : Step.Setting) (now : Calendar.Moment) (session : Session)
    (message : Option String) : List Stop → Ending → Prop where
  | refused (f : Frame) (h : session.flowId ≠ setting.flow.id) (hf : f.setting = setting) :
      Tours setting now session message [] (f.fail { session := counted now session } .error
        ("session belongs to flow '" ++ session.flowId ++ "', not '" ++ setting.flow.id ++ "'"))
  | lost (f : Frame) {error : String} (h : session.flowId = setting.flow.id)
      (hf : f.setting = setting) (he : entry setting.flow (begun now session message)
        (Step.givenAnswer message) = .error error) :
      Tours setting now session message []
        (f.fail { session := begun now session message } .error error)
  | underway (f : Frame) {n : Flow.Node} {answer : Option String} {opened : Session}
      {stops : List Stop} {e : Ending} (h : session.flowId = setting.flow.id)
      (hf : f.setting = setting) (he : entry setting.flow (begun now session message)
        (Step.givenAnswer message) = .ok (n, answer, opened))
      (t : Goes f setting.policy.maxSteps.toNat { session := opened } n
        (takesUp (begun now session message)) answer stops e) :
      Tours setting now session message stops e

/-- Whatever a tour ends with was toured. -/
theorem tours_of_ends {setting : Step.Setting} {now : Calendar.Moment} {session : Session}
    {message : Option String} {timeout : Option Binary64} {stops : List Stop} {e : Ending}
    (h : (tour setting now session message timeout).Ends (stops, e)) :
    Tours setting now session message stops e := by
  obtain ⟨start, h⟩ := Program.ends_request_iff.mp h
  dsimp only at h
  split at h
  · next hflow =>
    cases Program.ends_done_iff.mp h
    exact .refused _ hflow rfl
  · next hflow =>
    split at h
    · next he =>
      cases Program.ends_done_iff.mp h
      exact .lost _ (Decidable.not_not.mp hflow) rfl he
    · next he => exact .underway _ (Decidable.not_not.mp hflow) rfl he (goes_of_ends h)

/-! ### What the stops say -/

/-- The outcomes that a tour notes are outcomes of its nodes, on the sessions they found. -/
theorem Goes.outcome {f : Frame} {left : Nat} {w : Walk} {n : Flow.Node} {resumed : Bool}
    {answer : Option String} {stops : List Stop} {e : Ending}
    (h : Goes f left w n resumed answer stops e) {st : Stop} (hst : st ∈ stops)
    {o : Step.Outcome} (ho : st.fate = .over o) :
    (Step.run f.setting st.node st.session st.answer).Ends o := by
  induction h with
  | exhausted => cases hst
  | spared | deserted | cut =>
      obtain rfl := List.mem_singleton.mp hst
      cases ho
  | ended w n resumed answer hr =>
      obtain rfl := List.mem_singleton.mp hst
      cases ho
      exact hr
  | onward w n resumed answer hr _ _ ih =>
      rcases List.mem_cons.mp hst with rfl | hst
      · cases ho
        exact hr
      · exact ih hst

/-- What a node came to on a tour is an end of its run. -/
theorem Tours.outcome {setting : Step.Setting} {now : Calendar.Moment} {session : Session}
    {message : Option String} {stops : List Stop} {e : Ending}
    (h : Tours setting now session message stops e) {st : Stop} (hst : st ∈ stops)
    {o : Step.Outcome} (ho : st.fate = .over o) :
    (Step.run setting st.node st.session st.answer).Ends o := by
  cases h with
  | refused | lost => cases hst
  | underway f _ hf _ t => exact hf ▸ t.outcome hst ho

/-- The first stop is the node that the tour is at, with what that node is handed. -/
theorem Goes.head {f : Frame} {left : Nat} {w : Walk} {n : Flow.Node} {resumed : Bool}
    {answer : Option String} {stops : List Stop} {e : Ending}
    (h : Goes f left w n resumed answer stops e) {st : Stop} (hst : stops.head? = some st) :
    st = ⟨n, resumed, w.session, answer, st.fate⟩ := by
  cases h <;> cases hst <;> rfl

/-- After the first stop nothing is taken up and nothing is handed on. -/
theorem Goes.tail {f : Frame} {left : Nat} {w : Walk} {n : Flow.Node} {resumed : Bool}
    {answer : Option String} {stops : List Stop} {e : Ending}
    (h : Goes f left w n resumed answer stops e) {st : Stop} (hst : st ∈ stops.tail) :
    st.resumed = false ∧ st.answer = none := by
  induction h with
  | exhausted | spared | deserted | cut | ended => cases hst
  | @onward _ _ _ _ _ _ _ _ rest _ _ _ t ih =>
      cases rest with
      | nil => cases hst
      | cons first rest =>
          rcases List.mem_cons.mp hst with rfl | hst
          · rw [t.head rfl]
            exact ⟨rfl, rfl⟩
          · exact ih hst

end Parley.Turn

/-!
## Turns against collaborators

`Collaborators σ` answer the requests of steps; what they answer may depend on all that they were
asked before, which they keep in a state of type `σ`.

A turn is played against them in two ways.  In an `undisturbed` play nothing interrupts it.  In a
play that is `cutShort` it is interrupted at a given one of the moments at which it can be: when a
node is about to be run, or when a node waits for an answer.  Up to that moment the two plays are
one, and the second one remembers what the collaborators' state was when the node under way was
begun.
-/

namespace Parley.Turn

variable {σ : Type}

/-- Those who answer the requests of steps. -/
abbrev Collaborators (σ : Type) : Type := (op : Step.Op) → σ → op.Reply × σ

/-- The replies to a turn that begins at `start` and that nothing interrupts. -/
def undisturbed (c : Collaborators σ) (start : Rat) : (op : Op) → σ → op.Reply × σ
  | .time, s => (start, s)
  | .enter, s => (Entry.go, s)
  | .act op _, s => (.ok (c op s).1, (c op s).2)
  | .leave, s => (false, s)

/-- A play that is to be cut short. -/
structure Cutting (σ : Type) where
  /-- The state of the collaborators. -/
  now : σ
  /-- Their state when the node under way was begun. -/
  mark : σ
  /-- How many moments pass at which the turn could be interrupted and is not. -/
  passes : Nat

/-- The replies to a turn that begins at `start` and is interrupted by `i` when so many moments have
passed.  Before a node is run only a cancellation interrupts. -/
def cutShort (c : Collaborators σ) (start : Rat) (i : Interruption) :
    (op : Op) → Cutting σ → op.Reply × Cutting σ
  | .time, k => (start, k)
  | .enter, ⟨s, _, 0⟩ => (Entry.cancelled, ⟨s, s, 0⟩)
  | .enter, ⟨s, _, passes + 1⟩ => (Entry.go, ⟨s, s, passes⟩)
  | .act _ _, ⟨s, mark, 0⟩ => (.error i, ⟨s, mark, 0⟩)
  | .act op _, ⟨s, mark, passes + 1⟩ => (.ok (c op s).1, ⟨(c op s).2, mark, passes⟩)
  | .leave, k => (false, k)

/-- The result of a turn; an abandoned turn has none. -/
def Ending.result? : Ending → Option Result
  | .finished _ r => some r
  | .abandoned _ => none

theorem finished_of_result? {e : Ending} {r : Result} (h : e.result? = some r) :
    ∃ session, e = .finished session r := by
  cases e with
  | abandoned session => cases h
  | finished session r' =>
      cases h
      exact ⟨session, rfl⟩

/-- A play with a result is a tour with that result. -/
theorem ends_of_result? {p : TurnProgram (List Stop × Ending)} {τ : Type}
    {f : (op : Op) → τ → op.Reply × τ} {s : τ} {r : Result}
    (h : (p.play f s).1.2.result? = some r) :
    ∃ session, p.Ends ((p.play f s).1.1, .finished session r) := by
  obtain ⟨session, he⟩ := finished_of_result? h
  exact ⟨session, he ▸ Program.ends_play f p s⟩

/-! ### Collaborators who never answer, and a flow with a pause -/

/-- Collaborators who never answer in time. -/
def silent : Collaborators Unit
  | .consult _ _, s => (.error .timedOut, s)
  | .sleep _, s => ((), s)

/-- A greeting, a pause, a question for the name and a farewell. -/
def greeting : Flow :=
  { id := "greeting"
    nodes := [{ id := "start", block := .start {} },
      { id := "hello", block := .message { message := "Hello." } },
      { id := "pause", block := .delay { delaySeconds := .ofRank false 1 } },
      { id := "name", block := .input { question := "Who is there?", variableName := "name" } },
      { id := "bye", block := .ending { finalMessage := "Good day, {name}." } }]
    edges := [{ source := "start", target := "hello" }, { source := "hello", target := "pause" },
      { source := "pause", target := "name" }, { source := "name", target := "bye" }] }

/-- The greeting under the standard policy, with no collaborators. -/
def greetingSetting : Step.Setting := ⟨greeting, {}, {}⟩

/-- Midnight of a new year. -/
def newYear : Calendar.Moment := ⟨⟨2024, 1, 1⟩, 0, some 0⟩

/-- A new session of the greeting. -/
def newcomer : Session :=
  { id := "1", flowId := "greeting", contact := { id := "c" }, startedAt := newYear,
    lastActivityAt := newYear }

end Parley.Turn
