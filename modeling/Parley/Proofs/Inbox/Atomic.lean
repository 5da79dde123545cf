import Parley.Proofs.Inbox.Dealings
import Parley.Proofs.Inbox.Queue
import Parley.Proofs.Inbox.Serial

/-!
# All of a message or nothing of it

The handling of a message stores one session at most, and it does so last.  When nobody else is at
work, the message has a result and the session is stored as the result tells it, or the message is
refused or abandoned and the store is as it was before; but a session without the flow it is on is
stored as one that failed (`Leaves`).  The lock of the contact is left in every case
(`message_leaves_all_or_nothing`).

A session is stored as a dump has it: a number that is not finite is told with the result and not
stored (`infinity_is_told_and_not_stored`).  One that cannot be written is not stored at all, and
the message is refused.

The task may be abandoned wherever it waits: on its way to the lock, in any request of a turn, while
a ticket is opened.
-/

namespace Parley.Inbox

variable {setting : Setting} {reg : Registry} {st st' : Store} {log : List Exchange}
  {contact : Contact}

/-- What the handling of a message leaves in the store, as it ends. -/
inductive Leaves (reg : Registry) (st : Store) (contact : Contact) :
    Store → Outcome Turn.Result → Prop where
  /-- The session is stored as the result tells it, with null for every number that is not finite.
  -/
  | done {s₀ s : Session} {r : Turn.Result} (h : Taken st contact s₀) (hid : s.id = s₀.id)
      (ht : s.Timely) (hr : Turn.Reports s r) (hf : s.fits = true) :
      Leaves reg st contact (st.put s.dumped) (.done r)
  /-- The session lacks its flow, and nothing but its status is changed. -/
  | orphaned {s : Session} (h : Taken st contact s)
      (hv : reg.version? s.flowId s.flowVersion = none)
      (hf : s.fits = true) :
      Leaves reg st contact (st.put { s.dumped with status := .error })
        (.refused (.notRegistered s.flowId s.flowVersion))
  | refused {fault : Fault} (hf : ∀ id version, fault ≠ .notRegistered id version) :
      Leaves reg st contact st (.refused fault)
  | abandoned : Leaves reg st contact st .abandoned

/-- The session of a result is told as the result has it, with null for every number that is not
finite. -/
theorem Leaves.told {r : Turn.Result} (h : Leaves reg st contact st' (.done r)) :
    ∃ s : Session, (∀ now newId, st'.get now newId r.sessionId = .ok (some s)) ∧
      s.vars = Value.dumpedFields r.vars ∧ s.currentNodeId = r.currentNodeId ∧
        s.status = r.state.status := by
  generalize ho : Outcome.done r = o at h
  cases h with
  | @done s₀ s _ _ _ ht hr =>
      cases ho
      refine ⟨s.dumped, fun now newId => ?_, congrArg Value.dumpedFields hr.vars.symm,
        hr.node.symm, hr.status⟩
      have hrow : (st.put s.dumped).rows.get? s.dumped.id = some s.dumped.toValue := by
        rw [Store.rows_put, Entries.get?_put, if_pos rfl]
      rw [hr.id]
      exact Store.get_of_row hrow ht.dumped.written now newId
  | orphaned | refused | abandoned => cases ho

/-- A session that a result is about is saved, or it cannot be written and nothing is stored. -/
theorem leaves_once {s₀ s : Session} {r : Turn.Result} (h : Taken st contact s₀)
    (hid : s.id = s₀.id) (ht : s.Timely) (hr : Turn.Reports s r) :
    Leaves reg st contact (st.save s) (.once s.checkFit (.done r)) := by
  unfold Session.checkFit
  cases hf : s.fits with
  | false =>
      rw [Store.save_of_not_fits st hf]
      exact .refused nofun
  | true =>
      rw [Store.save_of_fits st hf]
      exact .done h hid ht hr hf

theorem leaves_noteForPerson {s : Session} {text : Option String} {o : Outcome Turn.Result}
    (hk : Kept log) (hs : Taken st contact s) (hstatus : s.status = .handoff)
    (h : Makes reg st (noteForPerson s text) log st' (.done o)) : Leaves reg st contact st' o := by
  obtain ⟨now, _, rfl, hutc, h⟩ := Makes.of_request h
  obtain ⟨rfl, rfl⟩ := makes_save_kept hk.tail h
  have ht := hs.timely
  exact leaves_once hs rfl ⟨ht.started, hutc, ht.history⟩ ⟨rfl, rfl, rfl, rfl, hstatus⟩

theorem leaves_orphaned {s : Session} {o : Outcome Turn.Result} (hk : Kept log)
    (hs : Taken st contact s) (hv : reg.version? s.flowId s.flowVersion = none)
    (h : Makes reg st (orphaned s) log st' (.done o)) : Leaves reg st contact st' o := by
  obtain ⟨rfl, rfl⟩ := makes_save_kept hk h
  have hfits : Session.fits { s with status := .error } = s.fits := rfl
  unfold Session.checkFit
  rw [hfits]
  cases hf : s.fits with
  | false =>
      rw [Store.save_of_not_fits st (hfits.trans hf)]
      exact .refused nofun
  | true =>
      rw [Store.save_of_fits st (hfits.trans hf)]
      exact .orphaned hs hv hf

/-- A result about a session is still about it when both are given the id of a ticket. -/
theorem reports_writeTicket {s : Session} {r : Turn.Result} (h : Turn.Reports s r)
    (ticket : Option Value) :
    Turn.Reports (writeTicket s r ticket).1 (writeTicket s r ticket).2 := by
  cases ticket with
  | none => exact h
  | some id =>
      exact ⟨h.id, h.flowId, congrArg (Entries.put · "handoff_ticket_id" id) h.vars,
        h.node, h.status⟩

theorem leaves_takeTurn {s : Session} {text : Option String} {o : Outcome Turn.Result}
    (hk : Kept log) (hs : Taken st contact s)
    (h : Makes reg st (takeTurn setting s text) log st' (.done o)) :
    Leaves reg st contact st' o := by
  obtain ⟨flow?, _, rfl, hflow, h⟩ := Makes.of_request h
  cases flow? with
  | none => exact leaves_orphaned hk.tail hs hflow.symm h
  | some flow =>
      obtain ⟨now, _, rfl, hutc, h⟩ := Makes.of_request h
      obtain ⟨log₁, log₂, e, st₁, rfl, h₁, h₂⟩ := h.of_bind
      obtain ⟨rfl, turn, -, he⟩ := h₁.of_turn
      cases e with
      | abandoned s' =>
          obtain ⟨-, rfl, rfl⟩ := Makes.of_done h₂
          exact .abandoned
      | finished s' r =>
          rcases makes_settle hk.tail.tail.append.2 h₂ with ⟨ticket, rfl, rfl⟩ | ⟨rfl, rfl⟩
          · have hc (id : String) : Call.finish "" ≠ .release id := nofun
            have hf := follows_of_stamped hc (Turn.stamped_of_ends he.ends) r ticket
            refine leaves_once hs hf.id (hf.timely hs.timely fun now' hnow => ?_)
              (reports_writeTicket (Turn.reports_of_ends he.ends) ticket)
            obtain rfl := Option.mem_some_iff.mp hnow
            exact hutc
          · exact .abandoned

/-- **The handling of a message** leaves all of it or nothing. -/
theorem leaves_handle {text : Option String} {flowId sessionId : String} {o : Outcome Turn.Result}
    (hst : st.Sound) (hk : Kept log)
    (h : Makes reg st (handle setting contact text flowId sessionId) log st' (.done o)) :
    Leaves reg st contact st' o := by
  obtain ⟨inside, _, rfl, -, h⟩ := Makes.of_request h
  cases inside with
  | false =>
      obtain ⟨-, rfl, rfl⟩ := Makes.of_done h
      exact .abandoned
  | true =>
      obtain ⟨log₁, log₂, o', st₁, rfl, h₁, h₂⟩ := h.of_bind
      obtain ⟨_, _, rfl, -, h₂⟩ := Makes.of_request h₂
      obtain ⟨-, rfl, rfl⟩ := Makes.of_done h₂
      have hk₁ := hk.tail.append.1
      rcases h₁.of_andThen with ⟨log₁, log₂, s, st₂, rfl, hfind, h₂⟩ | ⟨fault, hfind, rfl⟩ |
        ⟨hfind, rfl⟩ <;>
        obtain ⟨rfl, -, hs⟩ := makes_findSession hfind
      · have hs := hs.taken hst
        split at h₂
        · next hstatus => exact leaves_noteForPerson hk₁.append.2 hs hstatus h₂
        · exact leaves_takeTurn hk₁.append.2 hs h₂
      · cases hs with
        | refused hf => exact .refused hf
      · cases hs

/-! ### Nobody else at work -/

/-- Who comes to a lock and leaves it has left no trace. -/
theorem Locks.visits_leave_enter {l : Locks} {task : Nat} (h : ∀ v ∈ l.visits, v.task ≠ task)
    (contact : String) : ((l.enter task contact).leave task contact).visits = l.visits := by
  have hvisits := l.visits_enter task contact
  rcases leave_cases (l.enter task contact) task contact with ⟨-, hnone⟩ | ⟨v, hv, htask, -, he⟩
  · exact absurd rfl (hnone _ (hvisits ▸ List.mem_append_right _ List.mem_cons_self) rfl)
  · rw [hvisits] at hv he
    have hold : v ∉ l.visits := fun hmem => h v hmem htask
    obtain rfl := List.mem_singleton.mp ((List.mem_append.mp hv).resolve_left hold)
    rw [he, List.erase_append_right _ hold, List.erase_cons_head, List.append_nil]
    dsimp only
    split
    · next hin =>
      -- it was inside because nobody else visits the lock
      have hnone : ∀ u ∈ l.visits, u.lock ≠ (l.lockOf contact).1 := by simpa using hin
      rcases letIn_split (l.lockOf contact).1 l.visits with hl | ⟨before, u, after, hsplit, hu, -⟩
      · exact hl
      · exact absurd hu (hnone u (hsplit ▸ by simp))
    · rfl

namespace Hall

variable {h₀ h h' : Hall} {k : Nat} {j : Job} {call : Call}

/-- The task handles the message, the only one at work since the hall was `h₀`. -/
structure IsAlone (setting : Setting) (reg : Registry) (h₀ : Hall) (k : Nat) (call : Call)
    (h : Hall) (j : Job) : Prop where
  job : h.jobs k = some j
  makes : Makes reg h₀.store (call.program setting) j.log h.store j.rest
  locks : h.locks = h₀.locks ∧ j.phase.lock? = none ∨
    (∃ lock, h.locks = h₀.locks.enter k lock ∧ j.phase.Visits lock) ∨
    (∃ lock, h.locks = (h₀.locks.enter k lock).leave k lock) ∧ j.phase = .over

theorem IsAlone.comes (ha : IsAlone setting reg h₀ k call h j) (hs : h.Sound) {lock : String}
    {next : Bool → InboxProgram Unit} (hr : j.rest = .request (.acquire lock) next)
    (hv : ∀ v ∈ h.locks.visits, v.task ≠ k) : IsAlone setting reg h₀ k call (h.come k lock) j := by
  have hbound : j.phase = .bound lock := (hs.permits ha.job hr).1
  refine ⟨ha.job, ha.makes, .inr (.inl ⟨lock, ?_, .inl hbound⟩)⟩
  rcases ha.locks with ⟨he, -⟩ | ⟨other, he, -⟩ | ⟨-, hover⟩
  · exact congrArg (Locks.enter · k lock) he
  · rw [he, Locks.visits_enter] at hv
    exact absurd rfl (hv _ (List.mem_append_right _ List.mem_cons_self))
  · rw [hbound] at hover
    cases hover

theorem IsAlone.asks (ha : IsAlone setting reg h₀ k call h j) (hs : h.Sound)
    (hnew : ∀ v ∈ h₀.locks.visits, v.task ≠ k) {op : Op} {next : op.Reply → InboxProgram Unit}
    (hr : j.rest = .request op next) {r : op.Reply} (ht : Tells reg h.store op r)
    (hadmits : h.Admits k op r) :
    IsAlone setting reg h₀ k call (h.answer k j op r (next r)) (j.told op r (next r)) := by
  have hp := (hs.permits ha.job hr).1
  have hover (he : j.phase = .over) : False := Call.not_permits_over (he ▸ hp)
  have hmakes := ha.makes
  rw [hr] at hmakes
  refine ⟨Function.update_self _ _ _, hmakes.concat r ht, ?_⟩
  rw [j.phase_told]
  by_cases hstays : op.Stays r
  · have hsame : (h.answer k j op r (next r)).locks = h.locks := locksAfter_of_stays hstays _ _
    rw [hsame]
    rcases ha.locks with ⟨he, hnone⟩ | ⟨lock, he, hvisits⟩ | ⟨-, he'⟩
    · refine .inl ⟨he, Option.eq_none_iff_forall_ne_some.mpr fun lock hlock => ?_⟩
      by_cases hop : ∃ lock, op = .acquire lock
      -- whoever has not come is not let in
      · obtain ⟨lock, rfl⟩ := hop
        obtain rfl : r = true := hstays
        obtain ⟨v, hv, htask, -⟩ :=
          Locks.isInside_iff.mp (show h.locks.isInside k lock = true from hadmits)
        exact hnew v (he ▸ hv) htask
      · rw [(Call.lock?_after hp (fun lock he => hop ⟨lock, he⟩) hlock).1] at hnone
        cases hnone
    · exact .inr (.inl ⟨lock, he, hvisits.after hp hstays⟩)
    · exact (hover he').elim
  · obtain ⟨lock, hlock, hafter, hleave⟩ := leaves_of_not_stays hp hstays
    have hleft : (h.answer k j op r (next r)).locks = h.locks.leave k lock := hleave _ _
    rw [hleft, hafter]
    rcases ha.locks with ⟨he, -⟩ | ⟨other, he, hvisits⟩ | ⟨-, he'⟩
    · refine .inl ⟨?_, rfl⟩
      rw [he]
      rcases h₀.locks.leave_cases k lock with ⟨hsame, -⟩ | ⟨v, hv, htask, -⟩
      · exact hsame
      · exact absurd htask (hnew v hv)
    · obtain rfl := hvisits.unique hlock
      exact .inr (.inr ⟨⟨other, by rw [he]⟩, rfl⟩)
    · exact (hover he').elim

/-- **A task that is the only one at work** makes exchanges with the store as it was when it began.
-/
theorem isAlone_of_solo (hs : h.Sound) (hq : h.Queues) (hk : h.jobs k = none) (call : Call)
    (hr : Solo reg k (h.start setting k call) h') : ∃ j, IsAlone setting reg h k call h' j := by
  have hnew : ∀ v ∈ h.locks.visits, v.task ≠ k := fun v hv he => by
    obtain ⟨j, hj, -⟩ := hq.visitors hv
    rw [he, hk] at hj
    cases hj
  have hbegins : Step setting reg h (h.start setting k call) := .begins k call hk
  have hs' : (h.start setting k call).Sound := hs.step hbegins
  induction hr with
  | refl =>
      refine ⟨_, Function.update_self _ _ _, .here _ _, .inl ⟨rfl, ?_⟩⟩
      cases call <;> rfl
  | tail hr hstep ih =>
      obtain ⟨j, ha⟩ := ih
      have hreaches : Reaches setting reg _ _ := reaches_of_solo hr
      have hs := hs'.reaches hreaches
      cases hstep with
      | comes hj hr hv =>
          obtain rfl := Option.some.inj (ha.job.symm.trans hj)
          exact ⟨_, ha.comes hs hr hv⟩
      | asks hj hr r ht hadmits =>
          obtain rfl := Option.some.inj (ha.job.symm.trans hj)
          exact ⟨_, ha.asks hs hnew hr ht hadmits⟩

/-- **All of a message or nothing of it.**  Whatever happened before, and wherever the handling of a
message is refused or abandoned: when nobody else is at work and sessions are kept in memory, the
message either has a result, and the session is stored that the result tells; or the store is as it
was, except that a session without its flow is stored as one that failed.  What is told of a session
from then on has the variables, the node and the status of the result, but null for every number
that is not finite.  Everybody else is at the locks as before, and the contact has a lock only if
somebody else visits it. -/
theorem message_leaves_all_or_nothing (ho : h₀.Opening) (hr : Reaches setting reg h₀ h)
    (hk : h.jobs k = none) {contact : Contact} {text : Option String} {flowId sessionId : String}
    (hsolo : Solo reg k (h.start setting k (.message contact text flowId sessionId)) h')
    (hj : h'.jobs k = some j) (hdone : j.rest = .done ()) (hkept : Kept j.log) :
    ∃ o, Makes reg h.store (handle setting contact text flowId sessionId) j.log h'.store (.done o) ∧
      Leaves reg h.store contact h'.store o ∧
      (∀ r, o = .done r → ∃ s : Session,
        (∀ now newId, h'.store.get now newId r.sessionId = .ok (some s)) ∧
          s.vars = Value.dumpedFields r.vars ∧ s.currentNodeId = r.currentNodeId ∧
          s.status = r.state.status) ∧
      h'.locks.visits = h.locks.visits ∧
      ((∀ v ∈ h.locks.visits, v.contact ≠ contact.id) →
        h'.locks.serving.get? contact.id = none) := by
  have hs := ho.sound.reaches hr
  have hq := Queues.reaches ho hr
  have hall : Reaches setting reg h₀ h' := (hr.tail (.begins k _ hk)).trans (reaches_of_solo hsolo)
  obtain ⟨j', ha⟩ := isAlone_of_solo hs hq hk _ hsolo
  obtain rfl := Option.some.inj (ha.job.symm.trans hj)
  have hmakes := ha.makes
  rw [hdone] at hmakes
  obtain ⟨o, hmakes⟩ := Makes.of_forgetting hmakes
  -- the task visits no lock before it begins, and none when it is over
  have hnew : ∀ v ∈ h.locks.visits, v.task ≠ k := fun v hv he => by
    obtain ⟨j, hj, -⟩ := hq.visitors hv
    rw [he, hk] at hj
    cases hj
  have hover : j'.phase = .over := by
    have hobeys := (ho.sound.reaches hall).obeys hj
    rw [hdone] at hobeys
    exact hobeys
  have hvisits : h'.locks.visits = h.locks.visits := by
    rcases ha.locks with ⟨he, -⟩ | ⟨lock, -, hvisits⟩ | ⟨⟨lock, he⟩, -⟩
    · rw [he]
    · rw [hover] at hvisits
      simp [Phase.Visits, Phase.lock?] at hvisits
    · rw [he]
      exact Locks.visits_leave_enter hnew lock
  have hleaves := leaves_handle hs.store hkept hmakes
  refine ⟨o, hmakes, hleaves, fun r he => Leaves.told (he ▸ hleaves), hvisits, fun hnobody => ?_⟩
  refine Option.eq_none_iff_forall_ne_some.mpr fun lock hlock => ?_
  obtain ⟨v, hv, hc⟩ := (Queues.reaches ho hall).tidy contact.id lock hlock
  exact hnobody v (hvisits ▸ hv) hc

/-! A person has taken over the session of a contact.  A message of the contact is noted when nobody
else is at work. -/

theorem message_leaves_all_or_nothing_taken : ∃ h' j,
    Solo {} 0 (takenHall.start ⟨{}, {}⟩ 0 (.message { id := "ana" } (some "still there?") "" ""))
      h' ∧
    h'.jobs 0 = some j ∧ j.rest = .done () ∧ Kept j.log ∧
    h'.store = takenHall.store.save takenNoted ∧ ∃ o,
      Makes {} takenHall.store
        (handle ⟨{}, {}⟩ { id := "ana" } (some "still there?") "" "") j.log h'.store
        (.done o) ∧
      Leaves {} takenHall.store { id := "ana" } h'.store o ∧
      (∀ r, o = .done r → ∃ s : Session,
        (∀ now newId, h'.store.get now newId r.sessionId = .ok (some s)) ∧
          s.vars = Value.dumpedFields r.vars ∧ s.currentNodeId = r.currentNodeId ∧
          s.status = r.state.status) ∧
      h'.locks.visits = takenHall.locks.visits ∧
      ((∀ v ∈ takenHall.locks.visits, v.contact ≠ "ana") → h'.locks.serving.get? "ana" = none) := by
  have hr : Solo {} 0 (takenHall.start ⟨{}, {}⟩ 0
      (.message { id := "ana" } (some "still there?") "" "")) _ :=
    .refl
  have hr := hr.tail (@StepOf.comes _ 0 _ _ "ana" _ rfl rfl (by decide))
  have hr := hr.tail (@StepOf.asks _ 0 _ _ (.acquire "ana") _ rfl rfl true trivial
    (show Locks.isInside _ _ _ = true by decide))
  have hr := hr.tail (@StepOf.asks _ 0 _ _ (.latest "ana" "") _ rfl rfl (.ok (some taken))
    ⟨noon 0, "", (latest_takenHall _ _).symm⟩ trivial)
  have hr := hr.tail (@StepOf.asks _ 0 _ _ .now _ rfl rfl (noon 1) timely_takenNoted.active trivial)
  have hr := hr.tail (@StepOf.asks _ 0 _ _ (.save _) _ rfl rfl (.ok ()) nofun trivial)
  have hr := hr.tail (@StepOf.asks _ 0 _ _ (.release "ana") _ rfl rfl () trivial trivial)
  -- one request saves, and its reply is the one that is due
  suffices hkept : Kept _ by
    exact ⟨_, _, hr, rfl, rfl, hkept, rfl,
      message_leaves_all_or_nothing opening_takenHall .refl rfl hr rfl rfl hkept⟩
  intro s r hmem
  simp only [Job.told, List.nil_append, List.cons_append, List.mem_cons, List.not_mem_nil,
    or_false] at hmem
  rcases hmem with he | he | he | he | he <;> cases he
  rfl

end Hall

/-! A flow has a variable that is infinite at first.  A contact says hello. -/

/-- The greeting with a variable that is infinite at first. -/
def unbounded : Flow :=
  { Turn.greeting with declarations :=
    [{ name := "ratio", defaultValue := .float (.infinite false) }] }

/-- A registry with the flow. -/
def unboundedRegistry : Registry :=
  { flows := [("greeting", unbounded)], versions := [(("greeting", 1), unbounded)] }

/-- The session that is begun for the contact. -/
def unboundedBegun : Session := newSession unbounded { id := "ana" } "s1" (Hall.noon 1)

/-- The turn in which the name is asked for. -/
def unboundedAsked : List Turn.Stop × Turn.Ending :=
  ((Turn.tour ⟨unbounded, {}, {}⟩ (Hall.noon 2) unboundedBegun (some "hi") none).play
    (Turn.undisturbed Turn.silent 0) ()).1

/-- The session is begun. -/
theorem goes_unboundedBegun :
    Goes unboundedRegistry {} (findSession { id := "ana" } (some "hi") "" "")
    [⟨.latest "ana" "", .ok none⟩, ⟨.resolve "hi" "", some unbounded⟩, ⟨.newId, "s1"⟩,
      ⟨.now, Hall.noon 1⟩] {}
    (.done (.done unboundedBegun)) :=
  @Goes.asks _ _ _ _ (.latest "ana" "") _ _ _ (.ok none) ⟨Hall.noon 0, "", rfl⟩ trivial
    (@Goes.asks _ _ _ _ (.resolve "hi" "") _ _ _ (some unbounded) rfl trivial
      (@Goes.asks _ _ _ _ .newId _ _ _ "s1" trivial trivial
        (@Goes.asks _ _ _ _ .now _ _ _ (Hall.noon 1) (Hall.utc_noon (by decide)) trivial
          (.here _ _))))

/-- The turn comes to a result, and leaves a session that can be written. -/
theorem unboundedAsked_eq : ∃ s r, unboundedAsked.2 = .finished s r ∧ s.fits = true ∧
    (r.vars.get? "ratio").map
    (fun v => (v.kindWord, v.dumped.kindWord)) = some ("float", "NoneType") := by
  have hfits : unboundedAsked.2.session.fits = true := by decide +kernel
  have hratio : (unboundedAsked.2.result?.bind fun r => (r.vars.get? "ratio").map fun v =>
      (v.kindWord, v.dumped.kindWord)) = some ("float", "NoneType") := by decide +kernel
  obtain ⟨r, hr, hratio⟩ := Option.bind_eq_some_iff.mp hratio
  obtain ⟨s, he⟩ := Turn.finished_of_result? hr
  rw [he] at hfits
  exact ⟨s, r, he, hfits, hratio⟩

/-- **What is not finite is told and not stored.**  The result of the message has the infinite
variable, and the session is stored without it. -/
theorem infinity_is_told_and_not_stored : ∃ log st' r, ∃ s : Session,
    Makes unboundedRegistry {} (handle ⟨{}, {}⟩ { id := "ana" } (some "hi") "" "") log st'
      (.done (.done r)) ∧
      Kept log ∧ (∀ now newId, st'.get now newId r.sessionId = .ok (some s)) ∧ s.vars ≠ r.vars := by
  obtain ⟨s', r, he, hfits, hratio⟩ := unboundedAsked_eq
  have hcomes := Program.comes_play (Turn.undisturbed Turn.silent 0)
    (Turn.tour ⟨unbounded, {}, {}⟩ (Hall.noon 2) unboundedBegun (some "hi") none) ()
  have hturn : unboundedAsked = (unboundedAsked.1, .finished s' r) := Prod.ext rfl he
  rw [show (Program.play (Turn.undisturbed Turn.silent 0) _ ()).1 = _ from hturn] at hcomes
  have ht : Turned ⟨{}, {}⟩ unboundedRegistry unboundedBegun (some "hi") _ unboundedAsked.1
      (.finished s' r) :=
    .mk rfl (Hall.utc_noon (by decide)) hcomes
  -- the whole message: the session that was begun takes its turn and is saved
  have hsettle := @goes_settle ⟨{}, {}⟩ unboundedRegistry {} s' rfl hfits r
  have hattend := goes_takeTurn ht hsettle
  rw [← attend_eq (by decide)] at hattend
  have hmakes := (goes_handle goes_unboundedBegun hattend).makes
  suffices hkept : Kept _ by
    obtain ⟨s, hget, hvars, -⟩ := Leaves.told (leaves_handle Store.sound_empty hkept hmakes)
    refine ⟨_, _, r, s, hmakes, hkept, hget, fun hsame => ?_⟩
    obtain ⟨v, hv, hkinds⟩ := Option.map_eq_some_iff.mp hratio
    have hdumped := Value.get?_dumpedFields r.vars "ratio"
    rw [← hvars, hsame, hv, Option.map_some, Option.some.injEq] at hdumped
    rw [← hdumped] at hkinds
    obtain ⟨hfloat, hnull⟩ := Prod.mk.inj hkinds
    exact absurd (hfloat.symm.trans hnull) (by decide)
  -- one request saves, and its reply is the one that is due
  intro s r hmem
  simp only [List.mem_cons, List.mem_append, List.mem_map, List.not_mem_nil, or_false] at hmem
  rcases hmem with he | (he | he | he | he) | ((he | he | ⟨_, -, he⟩) | he) | he <;> cases he
  exact (if_pos hfits).symm

end Parley.Inbox
