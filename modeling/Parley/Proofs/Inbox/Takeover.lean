import Parley.Proofs.Inbox.Dealings
import Parley.Proofs.Inbox.Serial
import Parley.Proofs.Registry.Books

/-!
# While a person has taken over

A message to a session that a person has taken over is noted and nothing more (`Handled.In.silent`):
no version, no turn and no ticket is asked for, the reply has no messages, and the session is stored
as it was but for the last message and the moment of it.  So it is with any number of messages,
however they are addressed.

When the session has been given back, a turn of its next message begins at the start node
(`silent_until_given_back`).  Still the start node need not be run: the turn may be cancelled before
its first step.  Nor is the session quite as it was if its document was written by another hand: a
number in it that is not finite is lost when a message is noted (`infinity_lost_and_start_spared`).
-/

namespace Parley

/-! ### Where a turn sets out -/

/-- A turn that begins at a node asks whether it may, and comes to the node. -/
theorem Turn.sets_out {setting : Step.Setting} {now : Calendar.Moment} {session opened : Session}
    {message given : Option String} {timeout : Option Binary64} {n : Flow.Node}
    {turn : List (Program.Exchange Turn.Op Turn.Op.Reply)} {stops : List Turn.Stop}
    {e : Turn.Ending} (h : (tour setting now session message timeout).Comes turn (stops, e))
    (hflow : session.flowId = setting.flow.id) (hmax : 0 < setting.policy.maxSteps)
    (hn : entry setting.flow (begun now session message) (Step.givenAnswer message) =
      .ok (n, given, opened)) :
    ∃ time, ∃ entry : Turn.Entry, ∃ rest fate, turn = ⟨.time, time⟩ :: ⟨.enter, entry⟩ :: rest ∧
      stops.head? = some ⟨n, takesUp (begun now session message), opened, given, fate⟩ ∧
      (fate = .spared ↔ entry ≠ .go) := by
  obtain ⟨left, hleft⟩ : ∃ left, setting.policy.maxSteps.toNat = left + 1 :=
    ⟨setting.policy.maxSteps.toNat - 1, by omega⟩
  obtain ⟨time, later, rfl, htour⟩ := Program.comes_request_iff.mp h
  dsimp only at htour
  rw [if_neg (not_not_intro hflow), hn, hleft] at htour
  obtain ⟨entry, rest, rfl, htravel⟩ := Program.comes_request_iff.mp htour
  refine ⟨time, entry, rest, ?_⟩
  cases entry with
  | abandoned | cancelled =>
      cases (Program.comes_done_iff.mp htravel).2
      exact ⟨.spared, rfl, rfl, by simp⟩
  | go =>
      obtain ⟨_, _, r, -, -, hr⟩ := Program.comes_bind_iff.mp htravel
      cases r with
      | error i =>
          cases (Program.comes_done_iff.mp hr).2
          exact ⟨.cut i, rfl, rfl, by simp⟩
      | ok o =>
          dsimp only at hr
          split at hr
          · cases (Program.comes_done_iff.mp hr).2
            exact ⟨.over o, rfl, rfl, by simp⟩
          · obtain ⟨_, _, _, -, -, hdone⟩ := Program.comes_bind_iff.mp hr
            cases (Program.comes_done_iff.mp hdone).2
            exact ⟨.over o, rfl, rfl, by simp⟩

namespace Inbox

open Calendar

variable {setting : Setting} {reg reg' : Registry} {st st' : Store} {s s₀ : Session} {m : Handled}

/-! ### Messages that are only noted -/

/-- The request is one of the bot's work: for the version of a flow, of a turn or for a ticket. -/
def Op.isWork : Op → Bool
  | .version .. | .turn _ | .ticket .. => true
  | _ => false

theorem Op.isWork_of_isLook {op : Op} (h : op.isLook = true) : op.isWork = false := by
  cases op <;> first | rfl | cases h

/-- None of the bot's work is done for the message, and the reply has nothing to say; there is one
unless the session could not be saved. -/
structure Handled.Silent (m : Handled) : Prop where
  asks : ∀ e ∈ m.log, e.op.isWork = false
  reply : (∃ r, m.outcome = .done r ∧ r.state = .handoff ∧ r.messages = []) ∨
    ∃ s e, ⟨.save s, .error e⟩ ∈ m.log ∧ m.outcome = .refused (.unwritable e)

/-- **A message to a session that a person has taken over** is noted in it, and nothing more. -/
theorem Handled.In.silent (h : m.In setting reg st s st') (hst : st.Has s.id (some s₀))
    (hs : s₀.status = .handoff) :
    s = s₀ ∧ m.Silent ∧ ∃ now, now.Utc ∧ st' = st.save (noted s m.text now) := by
  obtain ⟨-, hstored⟩ := h.session hst
  obtain rfl : s = s₀ := by
    rcases hstored with he | ⟨he, -⟩
    · exact (Option.some.inj he).symm
    · cases he
  obtain ⟨seek, work, hc⟩ := h.course
  have hasks (hwork : ∀ e ∈ work, e.op.isWork = false) : ∀ e ∈ m.log, e.op.isWork = false := by
    rw [hc.log]
    simp only [List.forall_mem_cons, List.forall_mem_append, List.not_mem_nil, false_imp_iff,
      implies_true]
    exact ⟨rfl, fun e he => Op.isWork_of_isLook (hc.look e he), hwork, rfl, trivial⟩
  have hattends := hc.attends
  generalize ho : m.outcome = o at hattends
  cases hattends with
  | @noted _ now hutc saved =>
      refine ⟨rfl, ⟨hasks (by simp [Op.isWork]), ?_⟩, now, hutc, rfl⟩
      cases saved with
      | ok => exact .inl ⟨_, ho, rfl, rfl⟩
      | error e => exact .inr ⟨noted s m.text now, e, by rw [hc.log]; simp, ho⟩
  | orphaned hs' | deserted hs' | plain hs' | ticketed hs' | dropped hs' => exact absurd hs hs'

/-- Of two messages that are noted the later counts. -/
theorem noted_noted (s : Session) (text text' : Option String) (now now' : Moment) :
    noted (noted s text now) text' now' = noted s text' now' := by
  simp [noted, Session.assign, Session.touch, Entries.put_put_self]

/-- A message is noted in a dump as in the session. -/
theorem noted_dumped (s : Session) (text : Option String) (now : Moment) :
    noted s.dumped text now = (noted s text now).dumped := by
  have htext : (Value.ofOption .text text).dumped = .ofOption .text text := by
    cases text <;> rfl
  simp only [noted, Session.assign, Session.touch, Session.dumped, Value.dumpedFields_put, htext]

/-- Whether a session can be written does not depend on the message that is noted. -/
theorem fits_noted (s : Session) (text text' : Option String) (now now' : Moment) :
    (noted s text now).fits = (noted s text' now').fits := by
  have hdepth (t : Option String) : (Value.ofOption .text t).depth = 1 := by
    cases t <;> rfl
  exact congrArg (fun depth => decide (depth ≤ Value.depthLimit))
    (Value.depthFields_put_congr s.vars "last_user_message"
      ((hdepth text).trans (hdepth text').symm))

/-- The session as it is stored after the messages: as it was, if there were none or it cannot be
written; or the last of them is noted in it, and it is as a dump has it. -/
def Told (past : List Deal) (s s' : Session) : Prop :=
  (past = [] ∨ ∀ text now, (noted s text now).fits = false) ∧ s' = s ∨
    ∃ m now, past.getLast? = some (.message m) ∧ now.Utc ∧ (noted s m.text now).fits = true ∧
      s' = (noted s m.text now).dumped

/-- Messages leave the status as it is. -/
theorem Told.status {past : List Deal} {s' : Session} (h : Told past s s') :
    s'.status = s.status := by
  rcases h with ⟨-, rfl⟩ | ⟨m, now, -, -, -, rfl⟩ <;> rfl

/-- Messages leave a session that can be written one that can. -/
theorem Told.fits {past : List Deal} {s' : Session} (h : Told past s s') (hs : s.fits = true) :
    s'.fits = true := by
  rcases h with ⟨-, rfl⟩ | ⟨m, now, -, -, hfits, rfl⟩
  · exact hs
  · rwa [Session.fits_dumped]

/-- One more message is noted. -/
theorem Told.more {past : List Deal} {s' : Session} (h : Told past s s') {now : Moment}
    (hutc : now.Utc) :
    Told (past ++ [.message m]) s
      (if (noted s' m.text now).fits then (noted s' m.text now).dumped else s') := by
  rcases h with ⟨-, rfl⟩ | ⟨m₀, now₀, -, -, hfits, rfl⟩
  · split
    · next hf => exact .inr ⟨m, now, List.getLast?_concat, hutc, hf, rfl⟩
    · next hf =>
      exact .inl ⟨.inr fun text now' => (fits_noted ..).trans (Bool.eq_false_iff.mpr hf), rfl⟩
  · have hf : (noted s m.text now).fits = true := (fits_noted ..).trans hfits
    rw [noted_dumped, noted_noted, Session.fits_dumped, if_pos hf, Session.dumped_dumped]
    exact .inr ⟨m, now, List.getLast?_concat, hutc, hf, rfl⟩

/-- So it is with all the messages until the session is given back. -/
theorem Dealings.silent {past : List Deal} (h : Dealings setting s.id reg st past reg' st')
    (hst : st.Has s.id (some s)) (hs : s.status = .handoff)
    (hpast : ∀ d ∈ past, ∃ m, d = .message m) :
    (∀ m, .message m ∈ past → m.Silent) ∧ ∃ s', Told past s s' ∧ st'.Has s.id (some s') := by
  induction h with
  | nothing => exact ⟨nofun, s, .inl ⟨.inl rfl, rfl⟩, hst⟩
  | elsewhere _ _ hspares ih =>
      obtain ⟨hall, s', htold, hhas⟩ := ih hpast
      exact ⟨hall, s', htold, hhas.spared hspares⟩
  | release =>
      obtain ⟨_, he⟩ := hpast _ (List.mem_append_right _ List.mem_cons_self)
      cases he
  | @message past _ _ _ m s₁ _ hm hid ih =>
      obtain ⟨hall, s', htold, hhas⟩ := ih fun d hd => hpast d (List.mem_append_left _ hd)
      obtain ⟨rfl, hsilent, now, hutc, rfl⟩ := hm.silent (hid.symm ▸ hhas) (htold.status.trans hs)
      have hw := (hhas.session _ rfl).2
      have hsaved := hhas.save (s := noted s₁ m.text now) hid ⟨hw.started, hutc.written, hw.history⟩
      rw [← apply_ite] at hsaved
      refine ⟨fun m' hm' => ?_, _, htold.more hutc, hsaved⟩
      rcases List.mem_append.mp hm' with hm' | hm'
      · exact hall m' hm'
      · cases List.mem_singleton.mp hm'
        exact hsilent

/-! ### Given back -/

/-- The turn of the message asks whether its first step may begin, and is told so. -/
def Handled.Enters (m : Handled) (entry : Turn.Entry) : Prop :=
  ∃ before time after, m.log = before ++ ⟨.turn .time, time⟩ :: ⟨.turn .enter, entry⟩ :: after

/-- The turn comes to the start node of the flow first, which is not taken up again and is handed
nothing; the node is run unless it is told before that the turn is cancelled or abandoned. -/
def Handled.Starts (m : Handled) (flow : Flow) (stops : List Turn.Stop) : Prop :=
  ∃ start entry, stops.head? = some start ∧ flow.startNode? = some start.node ∧
    start.resumed = false ∧
    start.answer = none ∧ m.Enters entry ∧ (start.fate = .spared ↔ entry ≠ .go)

/-- **A turn of a session that does not wait** begins at the start node. -/
theorem Handled.Runs.starts {stops : List Turn.Stop} {e : Turn.Ending}
    (h : m.Runs setting reg s stops e) (hreg : reg.Sound) (hs : s.status ≠ .waitingInput)
    (hmax : 0 < setting.policy.maxSteps) :
    ∃ flow, reg.version? s.flowId s.flowVersion = some flow ∧ m.Starts flow stops := by
  obtain ⟨seek, _, rest, hlog, -, ht⟩ := h
  cases ht with
  | @mk flow now turn _ _ hv hutc ht =>
    obtain ⟨hid, -, hd⟩ := hreg.of_version? hv
    obtain ⟨start, hstart⟩ := Flow.exists_startNode? hd
    have hbegun : (Turn.begun now s m.text).status ≠ .waitingInput := by rwa [Turn.status_begun]
    obtain ⟨time, entry, more, fate, rfl, hhead, hfate⟩ :=
      Turn.sets_out ht hid.symm hmax (Turn.entry_of_rests hstart hbegun _)
    refine ⟨flow, hv, _, entry, hhead, hstart, ?_, rfl, ?_, hfate⟩
    · simp [Turn.takesUp, Session.isWaiting, hbegun]
    · exact ⟨⟨.acquire m.contact.id, true⟩ ::
        (seek ++ [⟨.version s.flowId s.flowVersion, some flow⟩,
        ⟨.now, now⟩]), time, more.map inTurn ++ rest, by rw [hlog]; simp [inTurn]⟩

/-- A session that is given back after some messages is active, and otherwise as the messages left
it. -/
theorem givenBack_of_release {s' s₂ : Session} {reg₂ : Registry} {st₂ st₃ : Store}
    {log : List Exchange} {o : Outcome Session} (hst : st.Has s'.id (some s'))
    (hs : s'.status = .handoff) (hfits : s'.fits = true)
    (h : Dealings setting s'.id reg st [.release log o] reg₂ st₂)
    (hm : m.In setting reg₂ st₂ s₂ st₃) (hid : s₂.id = s'.id) :
    ∃ now, now.Utc ∧ s₂ = (givenBack s' now).dumped := by
  have h : Dealings setting s'.id reg st ([] ++ [.release log o]) reg₂ st₂ := h
  obtain ⟨reg₁, st₁, st', h, hr, hspares⟩ := h.release_last
  have hhas := hst.spared h.spares
  cases releases_of_goes hhas hr with
  | kept hs' => exact absurd hs hs'
  | @back _ _ _ _ now hutc saved =>
      have hw := (hhas.session s' rfl).2
      have hback := hhas.save (s := givenBack s' now) rfl ⟨hw.started, hutc.written, hw.history⟩
      rw [if_pos (show (givenBack s' now).fits = true from hfits)] at hback
      obtain ⟨-, hstored⟩ := hm.session (hid ▸ hback.spared hspares)
      rcases hstored with he | ⟨he, -⟩
      · exact ⟨now, hutc, (Option.some.inj he).symm⟩
      · cases he

/-- **Silence until a session is given back.**  A person has taken over a session, and messages are
handled in it one after the other, however they are addressed.  For none of them a version, a turn
or a ticket is asked for, each reply says that a person has taken over and has no messages, and the
session is stored as it was, with the last message and its moment noted; a session that cannot be
written is not stored anew.

Then the session is given back.  If it can be written, its next message finds it active and
otherwise as it was stored.  When the registry has the version of its flow and the policy allows a
step, the turn of that message comes to the start node first, and runs it unless the turn is
cancelled or abandoned before. -/
theorem silent_until_given_back {reg₁ : Registry} {st₁ : Store} {past : List Deal}
    (hst : st.Has s.id (some s)) (hs : s.status = .handoff)
    (h : Dealings setting s.id reg st past reg₁ st₁) (hpast : ∀ d ∈ past, ∃ m, d = .message m) :
    (∀ m, .message m ∈ past → m.Silent) ∧
      ∃ s', Told past s s' ∧ st₁.Has s.id (some s') ∧
        ∀ log o reg₂ st₂ (m : Handled) s₂ st₃, s'.fits = true →
          Dealings setting s.id reg₁ st₁ [.release log o] reg₂ st₂ → reg₂.Sound →
          m.In setting reg₂ st₂ s₂ st₃ → s₂.id = s.id →
          (∃ now, now.Utc ∧ s₂ = (givenBack s' now).dumped) ∧
            ∀ flow, reg₂.version? s.flowId s.flowVersion = some flow → 0 < setting.policy.maxSteps →
              ∃ stops e, m.Runs setting reg₂ s₂ stops e ∧ m.Starts flow stops := by
  obtain ⟨hsilent, s', htold, hhas⟩ := h.silent hst hs hpast
  refine ⟨hsilent, s', htold, hhas, fun log o reg₂ st₂ m s₂ st₃ hfits hrelease hreg hm hid => ?_⟩
  have hid' : s'.id = s.id := (hhas.session s' rfl).1
  obtain ⟨now, hutc, rfl⟩ := givenBack_of_release (hid'.symm ▸ hhas) (htold.status.trans hs) hfits
    (hid'.symm ▸ hrelease) hm (hid.trans hid'.symm)
  refine ⟨⟨now, hutc, rfl⟩, fun flow hv hmax => ?_⟩
  have hflow : s'.flowId = s.flowId ∧ s'.flowVersion = s.flowVersion := by
    rcases htold with ⟨-, rfl⟩ | ⟨_, _, -, -, -, rfl⟩ <;> exact ⟨rfl, rfl⟩
  obtain ⟨seek, work, hc⟩ := hm.course
  have hv' : reg₂.version? (givenBack s' now).dumped.flowId (givenBack s' now).dumped.flowVersion =
      some flow := by
    rw [← hv, ← hflow.1, ← hflow.2]
    rfl
  obtain ⟨stops, e, hruns⟩ := hc.runs nofun hv'
  obtain ⟨flow', hflow', hstarts⟩ := hruns.starts hreg nofun hmax
  cases hv'.symm.trans hflow'
  exact ⟨stops, e, hruns, hstarts⟩

/-! A session on a flow that hands everyone over is with a person.  A message is noted, and the
session is given back. -/

/-- A flow that hands everyone over to a person. -/
def help : Flow :=
  { id := "help"
    nodes := [{ id := "start", block := .start {} }, { id := "person", block := .handoff {} }]
    edges := [{ source := "start", target := "person" }] }

/-- The registry with the flow. -/
def helpDesk : Registry := Registry.publish {} help

theorem sound_helpDesk : helpDesk.Sound := Registry.sound_empty.publish (by decide)

theorem version?_helpDesk : helpDesk.version? "help" 1 = some help := by
  rw [helpDesk, Registry.version?_publish, if_pos (by decide)]

/-- The session is stored while a person has taken over. -/
def takenStore : Store := Store.save {} Hall.taken

/-- The message that is noted. -/
def notedMessage : Handled := .naming { id := "ana" } (some "still there?") Hall.taken
  [⟨.now, Hall.noon 1⟩, ⟨.save Hall.takenNoted, .ok ()⟩] (.done (takenOver Hall.takenNoted))

theorem has_takenStore : takenStore.Has "s1" (some Hall.taken) :=
  Hall.opening_takenHall.store.has ⟨Hall.timely_taken, rfl⟩

/-- The message is handled in the session that is stored. -/
theorem in_notedMessage : notedMessage.In ⟨{}, {}⟩ helpDesk takenStore Hall.taken
    (takenStore.save Hall.takenNoted) :=
  Handled.in_naming has_takenStore (by decide) _
    (@Goes.asks _ _ _ _ .now _ _ _ (Hall.noon 1) Hall.timely_takenNoted.active trivial
      (@Goes.asks _ _ _ _ (.save Hall.takenNoted) _ _ _ (.ok ()) nofun trivial (.here _ _)))

/-- The session that is given back. -/
def returned : Session := givenBack Hall.takenNoted (Hall.noon 2)

/-- The session is given back after the message was noted. -/
def returnedStore : Store := (takenStore.save Hall.takenNoted).save returned

theorem has_notedStore :
    (takenStore.save Hall.takenNoted).Has Hall.takenNoted.id (some Hall.takenNoted) :=
  has_takenStore.save rfl Hall.timely_takenNoted.written

theorem timely_returned : returned.Timely :=
  ⟨Hall.utc_noon (by decide), Hall.utc_noon (by decide), nofun⟩

theorem has_returnedStore : returnedStore.Has "s1" (some returned) :=
  has_notedStore.save rfl timely_returned.written

/-- The session is given back. -/
theorem goes_return : Goes helpDesk (takenStore.save Hall.takenNoted) (release Hall.takenNoted.id)
    (backLog Hall.takenNoted (Hall.noon 2)) returnedStore (.done (.done returned)) :=
  goes_back has_notedStore rfl rfl timely_returned.active

/-- The turn of the next message, with such replies. -/
def nextTurn {σ : Type} (f : (op : Turn.Op) → σ → op.Reply × σ) (k : σ) :
    List Turn.Stop × Turn.Ending :=
  ((Turn.tour ⟨help, {}, {}⟩ (Hall.noon 3) returned (some "hello") none).play f k).1

/-- The next message is handled in the session that was given back, whatever its turn is replied. -/
theorem in_nextMessage {σ : Type} (f : (op : Turn.Op) → σ → op.Reply × σ) (k : σ)
    {stops : List Turn.Stop} {s' : Session} {r : Turn.Result}
    (h : nextTurn f k = (stops, .finished s' r)) (hfits : s'.fits = true) :
    ∃ m : Handled, m.In ⟨{}, {}⟩ helpDesk returnedStore returned (returnedStore.save s') ∧
      m.Runs ⟨{}, {}⟩ helpDesk returned stops (.finished s' r) := by
  have hcomes := Program.comes_play f
    (Turn.tour ⟨help, {}, {}⟩ (Hall.noon 3) returned (some "hello") none) k
  rw [show (Program.play f _ k).1 = _ from h] at hcomes
  have ht : Turned ⟨{}, {}⟩ helpDesk returned (some "hello") _ stops (.finished s' r) :=
    .mk version?_helpDesk (Hall.utc_noon (by decide)) hcomes
  exact ⟨_, Handled.in_naming has_returnedStore (by decide) { id := "ana" }
      (goes_takeTurn ht (goes_settle rfl hfits r)),
    Handled.runs_naming (by decide) ht _ _ _⟩

theorem silent_until_given_back_help :
    (takenStore.Has "s1" (some Hall.taken) ∧ Hall.taken.status = .handoff ∧ helpDesk.Sound) ∧
      notedMessage.Silent ∧ ∃ st₁ st₂ st₃, ∃ m : Handled,
        Dealings ⟨{}, {}⟩ "s1" helpDesk takenStore [.message notedMessage] helpDesk st₁ ∧
        Dealings ⟨{}, {}⟩ "s1" helpDesk st₁ [.release (backLog Hall.takenNoted (Hall.noon 2))
          (.done returned)] helpDesk st₂ ∧
        m.In ⟨{}, {}⟩ helpDesk st₂ returned st₃ ∧
        ∃ stops e, m.Runs ⟨{}, {}⟩ helpDesk returned stops e ∧ m.Starts help stops := by
  have hnoted : Dealings ⟨{}, {}⟩ Hall.taken.id helpDesk takenStore [.message notedMessage] helpDesk
      (takenStore.save Hall.takenNoted) := .message .nothing in_notedMessage rfl
  have hreturn : Dealings ⟨{}, {}⟩ Hall.taken.id helpDesk (takenStore.save Hall.takenNoted)
      [.release (backLog Hall.takenNoted (Hall.noon 2)) (.done returned)] helpDesk returnedStore :=
        .release .nothing goes_return
  obtain ⟨hsilent, s', htold, -, hnext⟩ :=
    silent_until_given_back has_takenStore rfl hnoted fun d hd => ⟨_, List.mem_singleton.mp hd⟩
  obtain ⟨r, hr⟩ : ∃ r, (nextTurn (Turn.undisturbed Turn.silent 0) ()).2.result? = some r :=
    Option.isSome_iff_exists.mp (by decide +kernel)
  obtain ⟨s'', he⟩ := Turn.finished_of_result? hr
  have hfits : (nextTurn (Turn.undisturbed Turn.silent 0) ()).2.session.fits = true := by
    decide +kernel
  rw [he] at hfits
  obtain ⟨m, hm, -⟩ := in_nextMessage (Turn.undisturbed Turn.silent 0) () (Prod.ext rfl he) hfits
  exact ⟨⟨has_takenStore, rfl, sound_helpDesk⟩, hsilent _ List.mem_cons_self, _, _, _, m, hnoted,
    hreturn, hm, (hnext _ _ _ _ m _ _ (htold.fits rfl) hreturn sound_helpDesk hm rfl).2 help
      version?_helpDesk (by decide)⟩

/-- The session with an infinite variable. -/
def takenUnbounded : Session := { Hall.taken with vars := [("ratio", .float (.infinite false))] }

/-- The message that is noted in it. -/
def unboundedMessage : Handled := .naming { id := "ana" } (some "still there?") takenUnbounded
  [⟨.now, Hall.noon 1⟩, ⟨.save (noted takenUnbounded (some "still there?") (Hall.noon 1)), .ok ()⟩]
  (.done (takenOver (noted takenUnbounded (some "still there?") (Hall.noon 1))))

theorem has_putUnbounded : (Store.put {} takenUnbounded).Has "s1" (some takenUnbounded) :=
  (Store.has_empty "s1").put rfl ⟨Hall.timely_taken.written.started,
    Hall.timely_taken.written.active, nofun⟩

/-- **What a message leaves is not quite what was there, and the start node need not be run.**  A
session whose document has an infinite variable is told without it once a message was noted.  The
next message of a session that was given back is cancelled before its first step: no node is run for
it. -/
theorem infinity_lost_and_start_spared :
    (takenUnbounded.status = .handoff ∧ (Store.put {} takenUnbounded).Has "s1"
      (some takenUnbounded) ∧
      ∃ st₁, unboundedMessage.In ⟨{}, {}⟩ helpDesk
        (Store.put {} takenUnbounded) takenUnbounded st₁ ∧
        ∀ s', st₁.Has "s1" (some s') → s'.vars.get? "ratio" ≠ takenUnbounded.vars.get? "ratio") ∧
    ∃ st₂ st₃, ∃ m : Handled, ∃ stops s' r,
      Hall.taken.status = .handoff ∧ takenStore.Has "s1" (some Hall.taken) ∧ helpDesk.Sound ∧
        Dealings ⟨{}, {}⟩ "s1" helpDesk takenStore
          [.message notedMessage, .release (backLog Hall.takenNoted (Hall.noon 2)) (.done returned)]
            helpDesk st₂ ∧
        m.In ⟨{}, {}⟩ helpDesk st₂ returned st₃ ∧
          m.Runs ⟨{}, {}⟩ helpDesk returned stops (.finished s' r) ∧
        r.stepsExecuted = 0 ∧ ∀ st ∈ stops, st.fate = .spared := by
  refine ⟨⟨rfl, has_putUnbounded, _, Handled.in_naming has_putUnbounded (by decide) _
    (@Goes.asks _ _ _ _ .now _ _ _ (Hall.noon 1) Hall.timely_takenNoted.active trivial
      (@Goes.asks _ _ _ _ (.save _) _ _ _ (.ok ()) nofun trivial (.here _ _))), fun s' hs' => ?_⟩,
      ?_⟩
  · -- the document that is stored has null in its place
    have hnoted : (noted takenUnbounded (some "still there?") (Hall.noon 1)).Written :=
      ⟨Hall.timely_taken.written.started, Hall.timely_takenNoted.written.active, nofun⟩
    have hsaved := has_putUnbounded.save rfl hnoted
    rw [if_pos (by decide)] at hsaved
    have htold := (hs'.get (Hall.noon 2) "").symm.trans (hsaved.get (Hall.noon 2) "")
    rw [Option.some.inj (Except.ok.inj htold)]
    exact fun he => nomatch he
  have hpast : Dealings ⟨{}, {}⟩ "s1" helpDesk takenStore
      [.message notedMessage, .release (backLog Hall.takenNoted (Hall.noon 2)) (.done returned)]
          helpDesk returnedStore :=
    .release (.message .nothing in_notedMessage rfl) goes_return
  obtain ⟨m, hm, hruns⟩ := in_nextMessage (Turn.cutShort Turn.silent 0 .cancelled)
    ⟨(), (), 0⟩ rfl rfl
  exact ⟨_, _, m, _, _, _, rfl, has_takenStore, sound_helpDesk, hpast, hm, hruns, rfl, by simp⟩

end Inbox
end Parley
