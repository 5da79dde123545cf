import Mathlib.Algebra.GroupWithZero.Nat
import Parley.Proofs.Step.Saving
import Parley.Proofs.Turn.Conversation

/-!
# How often a lead is saved

A session stays at a lead capture for several turns, from the first question until the lead is
settled. A turn saves a lead at most once (`tour_saves_once`), and only at the node that it takes
up; when it has done so, it was interrupted at that node or it leaves the node (`cut_or_left`).  An
interrupted step leaves nothing, so the turn after it runs the node again, which saves the lead once
more.

`Dwells` is the stay of a session at a node, a turn at a time.  What is saved in a stay is bounded
by one and the turns that were interrupted after they had saved
(`lead_saved_once_but_for_interruptions`).
-/

namespace Parley.Turn

variable {α : Type} {k : Nat}

/-- An exchange of a turn. -/
abbrev Exchange : Type := Program.Exchange Op Op.Reply

/-- The request of a turn is to save a lead. -/
def Op.savesLead : Op → Bool
  | .act op _ => op.savesLead
  | _ => false

/-! ### What a turn asks for -/

theorem asksAtMost_guarded {deadline : Option Rat} {p : Step.StepProgram α}
    (h : p.AsksAtMost Step.Op.savesLead k) : (guarded deadline p).AsksAtMost Op.savesLead k := by
  induction p generalizing k with
  | done a => trivial
  | request op next ih =>
      unfold Program.AsksAtMost at h
      unfold guarded Program.AsksAtMost
      by_cases hop : op.savesLead = true
      · rw [if_pos hop] at h
        obtain ⟨left, rfl, h⟩ := h
        rw [if_pos (by exact hop)]
        refine ⟨left, rfl, fun r => ?_⟩
        cases r with
        | ok r => exact ih r (h r)
        | error i => trivial
      · rw [if_neg hop] at h
        rw [if_neg (by exact hop)]
        intro r
        cases r with
        | ok r => exact ih r (h r)
        | error i => trivial

theorem step_asksAtMost {f : Frame} {session : Session} {n : Flow.Node} {answer : Option String}
    (h : (Step.run f.setting n session answer).AsksAtMost Step.Op.savesLead k) :
    (step f session n answer).AsksAtMost Op.savesLead k := by
  refine Program.AsksAtMost.bind (m := 0) (asksAtMost_guarded h) fun r => ?_
  cases r with
  | error i => trivial
  | ok o =>
      intro left
      cases left <;> trivial

/-- The nodes that a turn comes to after its first, which are handed no answer, save no lead. -/
theorem travel_saves_nothing {f : Frame} {left : Nat} {w : Walk} {n : Flow.Node} {resumed : Bool} :
    (travel f left w n resumed none).AsksAtMost Op.savesLead 0 := by
  induction left generalizing w n resumed with
  | zero => trivial
  | succ left ih =>
      intro entry
      cases entry with
      | abandoned | cancelled => trivial
      | go =>
          refine Program.AsksAtMost.bind (m := 0)
            (step_asksAtMost Step.run_saves_nothing) fun r => ?_
          cases r with
          | error i => trivial
          | ok o =>
              dsimp only
              split
              · trivial
              · exact ih.bind (m := 0) fun _ => trivial

theorem travel_saves_once {f : Frame} {left : Nat} {w : Walk} {n : Flow.Node} {resumed : Bool}
    {answer : Option String} : (travel f left w n resumed answer).AsksAtMost Op.savesLead 1 := by
  cases left with
  | zero => trivial
  | succ left =>
      intro entry
      cases entry with
      | abandoned | cancelled => trivial
      | go =>
          refine Program.AsksAtMost.bind (m := 0) (step_asksAtMost Step.run_saves_once) fun r => ?_
          cases r with
          | error i => trivial
          | ok o =>
              dsimp only
              split
              · trivial
              · exact travel_saves_nothing.bind (m := 0) fun _ => trivial

/-- **A turn saves a lead at most once.** -/
theorem tour_saves_once {setting : Step.Setting} {now : Calendar.Moment} {session : Session}
    {message : Option String} {timeout : Option Binary64} :
    (tour setting now session message timeout).AsksAtMost Op.savesLead 1 := by
  intro start
  dsimp only
  split
  · trivial
  · split
    · trivial
    · exact travel_saves_once

/-! ### What becomes of the node -/

/-- The requests to save a lead among some exchanges. -/
def asked (log : List Exchange) : Nat := log.countP fun e => e.op.savesLead

/-- The exchanges of a guarded program that is not interrupted are its own. -/
theorem comes_guarded {deadline : Option Rat} {p : Step.StepProgram α} {log : List Exchange} {a : α}
    (h : (guarded deadline p).Comes log (.ok a)) :
    ∃ own, p.Comes own a ∧ asked log = own.countP fun e => e.op.savesLead := by
  induction p generalizing log with
  | done b =>
      obtain ⟨rfl, he⟩ := Program.comes_done_iff.mp h
      cases he
      exact ⟨[], .done a, rfl⟩
  | request op next ih =>
      rw [guarded] at h
      obtain ⟨r, rest, rfl, hr⟩ := Program.comes_request_iff.mp h
      cases r with
      | error i => cases (Program.comes_done_iff.mp hr).2
      | ok r =>
          obtain ⟨own, ho, hc⟩ := ih r hr
          refine ⟨_, .request r ho, ?_⟩
          unfold asked at hc ⊢
          rw [List.countP_cons, List.countP_cons, hc]
          rfl

/-- A step that is not interrupted and has asked for a lead to be saved does not wait. -/
theorem leaves_of_asked {f : Frame} {session : Session} {n : Flow.Node} {answer : Option String}
    {log : List Exchange} {o : Step.Outcome} (h : (step f session n answer).Comes log (.ok o))
    (ha : asked log ≠ 0) : o.Moves := by
  obtain ⟨log₁, log₂, r, rfl, h₁, h₂⟩ := Program.comes_bind_iff.mp h
  cases r with
  | error i => cases (Program.comes_done_iff.mp h₂).2
  | ok o' =>
      obtain ⟨left, rest, rfl, h₃⟩ := Program.comes_request_iff.mp h₂
      cases left with
      | true => cases (Program.comes_done_iff.mp h₃).2
      | false =>
          obtain ⟨rfl, he⟩ := Program.comes_done_iff.mp h₃
          cases he
          obtain ⟨own, ho, hc⟩ := comes_guarded h₁
          rintro e rfl hw
          refine ha ?_
          unfold asked at hc ⊢
          rw [List.countP_append, hc, Step.unsaved_of_waits ho hw]
          rfl

/-- **The node of a turn that has asked for a lead to be saved** is the first it came to, and either
the turn was interrupted there or the node came to an outcome that does not wait. -/
theorem cut_or_left {f : Frame} {left : Nat} {w : Walk} {n : Flow.Node} {resumed : Bool}
    {answer : Option String} {log : List Exchange} {stops : List Stop} {e : Ending}
    (h : (travel f left w n resumed answer).Comes log (stops, e)) (ha : asked log ≠ 0) :
    ∃ st, stops.head? = some st ∧
      ((∃ i, st.fate = .cut i) ∨ ∃ o, st.fate = .over o ∧ o.Moves) := by
  cases left with
  | zero =>
      obtain ⟨rfl, -⟩ := Program.comes_done_iff.mp h
      exact absurd rfl ha
  | succ left =>
      obtain ⟨entry, rest, rfl, hgo⟩ := Program.comes_request_iff.mp h
      cases entry with
      | abandoned | cancelled =>
          obtain ⟨rfl, -⟩ := Program.comes_done_iff.mp hgo
          exact absurd rfl ha
      | go =>
          obtain ⟨log₁, log₂, r, rfl, hr, hsettled⟩ := Program.comes_bind_iff.mp hgo
          cases r with
          | error i =>
              obtain ⟨rfl, he⟩ := Program.comes_done_iff.mp hsettled
              cases he
              exact ⟨_, rfl, .inl ⟨i, rfl⟩⟩
          | ok o =>
              -- nothing after the node asks for the save, so the node itself did
              have ho (h₂ : asked log₂ = 0) : o.Moves := by
                refine leaves_of_asked hr fun h₁ => ha ?_
                unfold asked at h₁ h₂ ⊢
                rw [List.countP_cons, List.countP_append, h₁, h₂]
                rfl
              dsimp only at hsettled
              split at hsettled
              · obtain ⟨rfl, he⟩ := Program.comes_done_iff.mp hsettled
                cases he
                exact ⟨_, rfl, .inr ⟨o, rfl, ho rfl⟩⟩
              · obtain ⟨log₃, log₄, t, rfl, ht, hend⟩ := Program.comes_bind_iff.mp hsettled
                obtain ⟨rfl, he⟩ := Program.comes_done_iff.mp hend
                cases he
                refine ⟨_, rfl, .inr ⟨o, rfl, ho ?_⟩⟩
                rw [List.append_nil]
                exact Nat.le_zero.mp (travel_saves_nothing.count_le ht)

/-- A turn whose only node came to an outcome that does not wait has a result, and the session does
not wait. -/
theorem left_of_goes {f : Frame} {left : Nat} {w : Walk} {n : Flow.Node} {resumed : Bool}
    {answer : Option String} {st : Stop} {e : Ending}
    (h : Goes f left w n resumed answer [st] e) {o : Step.Outcome} (hf : st.fate = .over o)
    (ho : o.Moves) : ∃ s r, e = .finished s r ∧ s.status ≠ .waitingInput := by
  cases h with
  | spared | deserted | cut => cases hf
  | ended _ _ _ _ _ hs =>
      cases hf
      cases hs with
      | failed | handsOff | completes | strays => exact ⟨_, _, rfl, nofun⟩
      | waits hc => exact absurd hc (ho _ rfl)
  | onward _ _ _ _ _ _ t =>
      cases t
      exact ⟨_, _, rfl, nofun⟩

/-! ### The stay at a node -/

/-- A turn with its exchanges. -/
structure Round extends Episode where
  log : List Exchange

/-- A lead was saved, and the back office has said so. -/
def confirms : Exchange → Bool
  | ⟨.act (.consult (.saveLead ..) _) _, .ok (.ok _)⟩ => true
  | _ => false

namespace Round

/-- How many leads were saved in a turn. -/
def saved (r : Round) : Nat := r.log.countP confirms

/-- The turn was interrupted while the node ran that it came to first. -/
def cut (r : Round) : Bool :=
  match r.stops.head?.map Stop.fate with
  | some (.cut _) => true
  | _ => false

end Round

/-- The session takes a turn, and this is how the next turn finds it: as the turn left it, or, when
the turn was abandoned and nothing of it was kept, as it was. -/
inductive Takes (setting : Step.Setting) (s : Session) (r : Round) : Session → Prop where
  | kept (now : Calendar.Moment) (message : Option String) (timeout : Option Binary64)
      (t : (tour setting now s message timeout).Comes r.log (r.stops, r.ending)) :
      Takes setting s r r.ending.session
  | dropped (now : Calendar.Moment) (message : Option String) (timeout : Option Binary64)
      (t : (tour setting now s message timeout).Comes r.log (r.stops, r.ending))
      (h : r.ending.result? = none) : Takes setting s r s

/-- The next turn of the session takes up the node. -/
def WaitsAt (flow : Flow) (n : Flow.Node) (s : Session) : Prop :=
  takesUp s = true ∧ flow.node? s.currentNodeId = some n

/-- The turns in which a session stays at a node: each comes to that node alone, and after each the
session waits there again. -/
inductive Dwells (setting : Step.Setting) (n : Flow.Node) (s : Session) :
    List Round → Session → Prop where
  | enters (h : WaitsAt setting.flow n s) : Dwells setting n s [] s
  | stays {rounds : List Round} {s₁ s₂ : Session} {r : Round} (h : Dwells setting n s rounds s₁)
      (t : Takes setting s₁ r s₂) (hone : r.stops.length ≤ 1) (hw : WaitsAt setting.flow n s₂) :
      Dwells setting n s (rounds ++ [r]) s₂

variable {setting : Step.Setting} {n : Flow.Node} {s s₁ s₂ : Session} {r : Round}

theorem confirms_le_asked (log : List Exchange) : log.countP confirms ≤ asked log := by
  refine List.countP_mono_left fun e _ he => ?_
  unfold confirms at he
  split at he
  · rfl
  · cases he

/-- The turn is a run of its tour, and what it leaves is kept if it has a result. -/
theorem Takes.comes (h : Takes setting s r s₁) : ∃ now message timeout,
    (tour setting now s message timeout).Comes r.log (r.stops, r.ending) ∧
      (r.ending.result? ≠ none → s₁ = r.ending.session) := by
  cases h with
  | kept now message timeout t => exact ⟨now, message, timeout, t, fun _ => rfl⟩
  | dropped now message timeout t hd => exact ⟨now, message, timeout, t, fun hr => absurd hd hr⟩

theorem eq_singleton_of_head? {stops : List Stop} {st : Stop} (h : stops.head? = some st)
    (hone : stops.length ≤ 1) : stops = [st] := by
  cases stops with
  | nil => cases h
  | cons first rest =>
      cases h
      rw [List.length_eq_zero_iff.mp (Nat.le_zero.mp (Nat.le_of_succ_le_succ hone))]

theorem Takes.saved_le_one (h : Takes setting s r s₁) : r.saved ≤ 1 := by
  obtain ⟨now, message, timeout, t, -⟩ := h.comes
  exact (confirms_le_asked r.log).trans (tour_saves_once.count_le t)

/-- **A turn that has saved a lead and leaves the session waiting at the same node** was interrupted
there. -/
theorem Takes.cut_of_saved (h : Takes setting s r s₁) (hone : r.stops.length ≤ 1)
    (hw : takesUp s₁ = true) (hs : 0 < r.saved) : r.cut = true := by
  obtain ⟨now, message, timeout, t, hkept⟩ := h.comes
  have ha : asked r.log ≠ 0 := Nat.ne_of_gt (hs.trans_le (confirms_le_asked r.log))
  obtain ⟨start, rest, hlog, hrun⟩ := Program.comes_request_iff.mp t
  rw [hlog] at ha
  dsimp only at hrun
  split at hrun
  · obtain ⟨rfl, -⟩ := Program.comes_done_iff.mp hrun
    exact absurd rfl ha
  · split at hrun
    · obtain ⟨rfl, -⟩ := Program.comes_done_iff.mp hrun
      exact absurd rfl ha
    · obtain ⟨st, hst, ⟨i, hi⟩ | ⟨o, hf, ho⟩⟩ := cut_or_left hrun ha
      · unfold Round.cut
        rw [hst, Option.map_some, hi]
      · rw [eq_singleton_of_head? hst hone] at hrun
        obtain ⟨s', r', he, hne⟩ := left_of_goes (goes_of_ends hrun.ends) hf ho
        rw [he] at hkept
        rw [hkept nofun] at hw
        exact absurd (eq_of_beq (Bool.and_eq_true_iff.mp hw).1) hne

/-- What is saved while a session stays at a node is saved by turns that were interrupted there. -/
theorem Dwells.saved_le {rounds : List Round} (h : Dwells setting n s rounds s₁) :
    (rounds.map Round.saved).sum ≤ rounds.countP fun r => r.cut && decide (0 < r.saved) := by
  induction h with
  | enters => exact Nat.le_refl 0
  | @stays rounds s₁ s₂ r _ t hone hw ih =>
      rw [List.map_append, List.sum_append, List.countP_append]
      refine Nat.add_le_add ih ?_
      have hle := t.saved_le_one
      by_cases hs : 0 < r.saved
      · simp [t.cut_of_saved hone hw.1 hs, hs, hle]
      · simp [Nat.eq_zero_of_not_pos hs]

/-- **A lead is saved once, and once more for each interruption after it was saved.**  A session
waits at a node, stays there for some turns and then takes one more, in which it may leave the node.
In all these turns together, whatever is replied, whatever the collaborators answer and whenever
turns are interrupted or abandoned, leads are saved at most once, and once more for each turn of the
stay that was interrupted at the node when the lead had been saved. -/
theorem lead_saved_once_but_for_interruptions {rounds : List Round} {last : Round}
    (h : Dwells setting n s rounds s₁) (t : Takes setting s₁ last s₂) :
    ((rounds ++ [last]).map Round.saved).sum ≤
      1 + rounds.countP fun r => r.cut && decide (0 < r.saved) := by
  rw [List.map_append, List.sum_append, Nat.add_comm]
  refine Nat.add_le_add ?_ h.saved_le
  simpa using t.saved_le_one

/-! ### A lead that is saved twice -/

/-- A name is asked for, saved and sent on. -/
def enrolmentNode : Flow.Node :=
  { id := "lead"
    block := .leadCapture {
      captureFields := [("nickname", { enabled := true, question := "Your nickname?" })],
                            captureOrder := ["nickname"], saveToDatabase := true,
                            sendToWebhook := true, webhookUrl := "https://crm.example" } }

/-- The enrolment of a contact. -/
def enrolment : Flow :=
  { id := "greeting"
    nodes := [{ id := "start", block := .start {} }, enrolmentNode,
      { id := "bye", block := .ending {} }]
    edges := [{ source := "start", target := "lead" }, { source := "lead", target := "bye" }] }

/-- The enrolment with a back office. -/
def enrolmentSetting : Step.Setting := ⟨enrolment, {}, { backend := true }⟩

/-- A back office that saves leads and sends them on. -/
def obliging : Collaborators Unit
  | .consult (.saveLead ..) _, s => (.ok (), s)
  | .consult (.sendLead ..) _, s => (.ok (), s)
  | .consult _ _, s => (.error .timedOut, s)
  | .sleep _, s => ((), s)

/-- A turn of the enrolment. -/
def enrolmentTurn {σ : Type} (s : Session) (message : String)
    (f : (op : Op) → σ → op.Reply × σ) (k : σ) : Round :=
  let p := tour enrolmentSetting newYear s (some message) none
  { stops := (p.play f k).1.1, ending := (p.play f k).1.2, log := p.transcript f k }

/-- The name is asked for. -/
def enrolmentAsked : Round := enrolmentTurn newcomer "hi" (undisturbed obliging 0) ()

/-- The name is given and saved, and the turn is given up when it is to be sent on. -/
def enrolmentCut : Round :=
  enrolmentTurn enrolmentAsked.ending.session "Ana" (cutShort obliging 0 .deadline) ⟨(), (), 2⟩

/-- The name is given once more. -/
def enrolmentOver : Round :=
  enrolmentTurn enrolmentCut.ending.session "Ana" (undisturbed obliging 0) ()

theorem takes_enrolmentTurn {σ : Type} (s : Session) (message : String)
    (f : (op : Op) → σ → op.Reply × σ) (k : σ) :
    Takes enrolmentSetting s (enrolmentTurn s message f k)
      (enrolmentTurn s message f k).ending.session :=
  .kept newYear (some message) none (Program.comes_play f _ k)

/-- The enrolment stays at its node in the turn that is given up. -/
theorem dwells_enrolment : Dwells enrolmentSetting enrolmentNode enrolmentAsked.ending.session
    [enrolmentCut] enrolmentCut.ending.session := by
  have hwaits {s : Session} (ht : takesUp s = true) (hid : s.currentNodeId = "lead") :
      WaitsAt enrolmentSetting.flow enrolmentNode s := ⟨ht, by rw [hid]; rfl⟩
  exact (Dwells.enters (hwaits (by decide +kernel) (by decide +kernel))).stays
    (takes_enrolmentTurn _ _ _ _) (by decide +kernel)
      (hwaits (by decide +kernel) (by decide +kernel))

/-- The name is asked for, and given; the deadline passes when it is saved and not yet sent on; it
is given once more.  It is saved twice, as the bound allows. -/
theorem lead_saved_once_but_for_interruptions_enrolment :
    ∃ rounds last s₂, (Dwells enrolmentSetting enrolmentNode enrolmentAsked.ending.session rounds
          enrolmentCut.ending.session ∧
        Takes enrolmentSetting enrolmentCut.ending.session last s₂) ∧
      ((rounds ++ [last]).map Round.saved).sum = 2 ∧
      ((rounds ++ [last]).map Round.saved).sum ≤
        1 + rounds.countP fun r => r.cut && decide (0 < r.saved) := by
  have t : Takes enrolmentSetting enrolmentCut.ending.session enrolmentOver
      enrolmentOver.ending.session := takes_enrolmentTurn _ _ _ _
  exact ⟨_, _, _, ⟨dwells_enrolment, t⟩, by decide +kernel,
    lead_saved_once_but_for_interruptions dwells_enrolment t⟩

/-- **A lead may be saved twice** by one visit to its node: a new session is asked for a name by a
node that saves leads, and waits there; in the turns from then on until the session has left the
node, in the last of them, the lead is saved more than once. -/
theorem lead_saved_twice :
    ∃ d asked s rounds last s₁ s₂, enrolmentNode.block = .leadCapture d ∧ d.saveToDatabase = true ∧
      Takes enrolmentSetting newcomer asked s ∧
      asked.ending.result?.map (·.messages) = some ["Your nickname?"] ∧
      Dwells enrolmentSetting enrolmentNode s rounds s₁ ∧ Takes enrolmentSetting s₁ last s₂ ∧
      last.stops.map (·.node.id) = ["lead", "bye"] ∧
      ¬ ((rounds ++ [last]).map Round.saved).sum ≤ 1 :=
  ⟨_, _, _, _, enrolmentOver, _, _, rfl, rfl, takes_enrolmentTurn newcomer "hi" _ _,
    by decide +kernel, dwells_enrolment, takes_enrolmentTurn _ _ _ _, by decide +kernel, by
      decide +kernel⟩

end Parley.Turn
