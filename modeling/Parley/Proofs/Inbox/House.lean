import Parley.Proofs.Inbox.Course
import Parley.Proofs.Inbox.Live
import Parley.Proofs.Inbox.Runners

/-!
# Publishing while messages are handled

A `House` is a hall with the registry that its tasks ask and the runners that they keep.  Its steps
are those of the hall, and between any two of them a flow may be published or taken back
(`House.Step`).  What a task is told for a version is the flow of the runner that is picked for it
(`House.Tells`).

Two things are remembered that no task reads: the flows that were published, the last first
(`House.published`), and for each session the version that it was begun on (`House.pinned`).

The runners do not show (`Posted.tells`), so a house is at every moment a hall that asks the
registry of that moment (`Step.hall`), and what a hall keeps is kept.  A session stays on the
version that it was begun on (`Phase.Pinned.after`, `Sound.step`), which the registry does not
forget; and whatever a task was told, it was told on the way (`told_of_reaches`).  So its turn is on
what was published last for that version when the turn started (`versions_are_pinned`).
-/

namespace Parley.Inbox

open Registry (Becomes newest?)

variable {setting : Setting}

/-- An inbox at work while flows are published and taken back. -/
structure House where
  hall : Hall := {}
  registry : Registry := {}
  runners : Runners := []
  /-- The flows that were published, the last first. -/
  published : List Flow := []
  /-- The id and version of the flow that the session with an id was begun on. -/
  pinned : String → Option (String × Int) := fun _ => none

namespace House

/-- What a task is told; for a version, the flow of the runner that is picked for it. -/
def Tells (h : House) : (op : Op) → op.Reply → Prop
  | .version id version, flow? =>
    flow? = (h.runners.pick h.registry id version).1.map (·.index.flow)
  | op, r => Inbox.Tells h.registry h.hall.store op r

/-- The runners that are kept after a request. -/
def runnersAfter (h : House) : Op → Runners
  | .version id version => (h.runners.pick h.registry id version).2
  | _ => h.runners

/-- The versions of the sessions, after a task that had come so far was told something. -/
def pinnedAfter (pinned : String → Option (String × Int)) (ph : Phase) :
    (op : Op) → op.Reply → String → Option (String × Int)
  | .newId, id => ph.flow?.elim pinned fun flow =>
    Function.update pinned id (some (flow.id, flow.version))
  | _, _ => pinned

/-- A task is told what it asks for. -/
def answer (h : House) (k : Nat) (j : Job) (op : Op) (r : op.Reply) (rest : InboxProgram Unit) :
    House where
  hall := h.hall.answer k j op r rest
  registry := h.registry
  runners := h.runnersAfter op
  published := h.published
  pinned := pinnedAfter h.pinned j.phase op r

/-- One step of the house. -/
inductive Step (setting : Setting) (h : House) : House → Prop where
  /-- A flow is published; one with a defect is refused, which is no step. -/
  | publishes {f : Flow} {registry : Registry} (hr : h.registry.add f = .ok registry) :
      Step setting h { h with registry := registry, published := f :: h.published }
  | withdraws (id : String) : Step setting h { h with registry := h.registry.remove id }
  | begins (k : Nat) (call : Call) (hk : h.hall.jobs k = none) :
      Step setting h { h with hall := h.hall.start setting k call }
  | comes {k : Nat} {j : Job} {lock : String} {next : Bool → InboxProgram Unit}
      (hj : h.hall.jobs k = some j) (hr : j.rest = .request (.acquire lock) next)
      (hv : ∀ v ∈ h.hall.locks.visits, v.task ≠ k) :
        Step setting h { h with hall := h.hall.come k lock }
  | asks {k : Nat} {j : Job} {op : Op} {next : op.Reply → InboxProgram Unit}
      (hj : h.hall.jobs k = some j) (hr : j.rest = .request op next) (r : op.Reply)
        (ht : h.Tells op r)
      (ha : h.hall.Admits k op r) : Step setting h (h.answer k j op r (next r))

/-- Some steps. -/
abbrev Reaches (setting : Setting) : House → House → Prop := Relation.ReflTransGen (Step setting)

/-- Nothing was published yet and nobody is there, and it is known whose every stored session is and
on which version. -/
structure Opening (h : House) : Prop where
  hall : h.hall.Opening
  registry : h.registry = {}
  runners : h.runners = []
  published : h.published = []
  pinned {s : Session} (hs : h.hall.store.Holds s) : h.pinned s.id = some (s.flowId, s.flowVersion)
  unpinned {id : String} (ho : h.hall.owner id = none) : h.pinned id = none

/-! ### The registry and the runners -/

/-- The registry and the runners follow what was published. -/
structure Posted (h : House) : Prop where
  registry : h.registry.Sound
  newest (id : String) (version : Int) : h.registry.index? id version =
    newest? h.published id version
  runners : h.runners.Fit h.registry

theorem Opening.posted {h : House} (ho : h.Opening) : h.Posted where
  registry := ho.registry ▸ Registry.sound_empty
  newest id version := by
    rw [ho.registry, ho.published]
    rfl
  runners := ho.runners ▸ Runners.fit_nil _

/-- What a step does to the registry. -/
theorem Step.becomes {h h' : House} (hstep : Step setting h h') :
    ∃ fs, Becomes h.registry fs h'.registry ∧ h'.published = fs ++ h.published := by
  cases hstep with
  | publishes hr => exact ⟨_, Registry.becomes_of_add hr, rfl⟩
  | withdraws id => exact ⟨[], .remove .refl id, rfl⟩
  | begins | comes | asks => exact ⟨[], .refl, rfl⟩

/-- The registry and the runners follow what was published with every step. -/
theorem Posted.step {h h' : House} (hp : h.Posted) (hstep : Step setting h h') : h'.Posted := by
  obtain ⟨fs, hb, hpublished⟩ := hstep.becomes
  refine ⟨hb.sound hp.registry, fun id version => ?_, ?_⟩
  · rw [hpublished]
    exact hb.index?_eq hp.newest id version
  · cases hstep with
    | publishes | withdraws => exact hp.runners.becomes hb
    | begins | comes => exact hp.runners
    | @asks k j op next hj hr r ht ha =>
        cases op with
        | version id version => exact hp.runners.pick id version
        | _ => exact hp.runners

/-- **The runner that is picked is one of the index made last.** -/
theorem Posted.index_pick {h : House} (hp : h.Posted) (id : String) (version : Int) :
    (h.runners.pick h.registry id version).1.map (·.index) = newest? h.published id version :=
  (hp.runners.index_pick id version).trans (hp.newest id version)

/-- **The runners do not show**: a task is told what the registry tells. -/
theorem Posted.tells {h : House} (hp : h.Posted) {op : Op} {r : op.Reply} (ht : h.Tells op r) :
    Inbox.Tells h.registry h.hall.store op r := by
  cases op with
  | version id version =>
      have hpick := congrArg (Option.map Registry.Index.flow) (hp.runners.index_pick id version)
      rw [Option.map_map] at hpick
      exact ht.trans hpick
  | _ => exact ht

/-- A step of the house leaves the hall as it is or is a step of the hall. -/
theorem Step.hall {h h' : House} (hp : h.Posted) (hstep : Step setting h h') :
    h'.hall = h.hall ∨ Hall.Step setting h.registry h.hall h'.hall := by
  cases hstep with
  | publishes | withdraws => exact .inl rfl
  | begins k call hk => exact .inr (.begins k call hk)
  | comes hj hr hv => exact .inr (.comes hj hr hv)
  | asks hj hr r ht ha => exact .inr (.asks hj hr r (hp.tells ht) ha)

/-! ### The versions of the sessions -/

end House

/-- The session in hand is on the version that it was begun on, and one that is about to be begun is
on a version that the registry has. -/
def Phase.Pinned (pinned : String → Option (String × Int)) (reg : Registry) : Phase → Prop
  | .chosen _ flow => (reg.version? flow.id flow.version).isSome
  | .named _ flow id => pinned id = some (flow.id, flow.version)
  | .holding _ hand => pinned hand.session.id = some (hand.session.flowId, hand.session.flowVersion)
  | _ => True

section
variable {pinned pinned' : String → Option (String × Int)} {reg reg' : Registry} {ph : Phase}
  {call : Call} {st : Store}

/-- What is pinned stays so when more is pinned and published. -/
theorem Phase.Pinned.mono (h : ph.Pinned pinned reg)
    (hp : ∀ id key, pinned id = some key → pinned' id = some key)
    (hr : ∀ id version, (reg.version? id version).isSome → (reg'.version? id version).isSome) :
    ph.Pinned pinned' reg' := by
  cases ph with
  | chosen _ flow => exact hr _ _ h
  | named _ flow id => exact hp _ _ h
  | holding _ hand => exact hp _ _ h
  | _ => trivial

/-- **A task stays with the version of the session in hand** whatever it is told. -/
theorem Phase.Pinned.after {op : Op} {r : op.Reply}
    (h : ph.Pinned (House.pinnedAfter pinned ph op r) reg) (hp : call.Permits ph op)
    (ht : Tells reg st op r) (hst : st.Sound) (hreg : reg.Sound)
    (hstored : ∀ s, st.Holds s → House.pinnedAfter pinned ph op r s.id =
      some (s.flowId, s.flowVersion)) :
    (call.after ph op r).Pinned (House.pinnedAfter pinned ph op r) reg := by
  -- a session in hand was told by the store, or it is begun with a version that is registered
  cases op with
  | acquire lock => cases r <;> trivial
  | release | delete => trivial
  | load id =>
      obtain ⟨now, newId, rfl⟩ := ht
      rcases hp with ⟨rfl, -⟩ | ⟨lock, rfl, -⟩
      · match st.get now newId id with
        | .error _ | .ok none | .ok (some s) => trivial
      · match hfound : st.get now newId id with
        | .error _ | .ok none => trivial
        | .ok (some s) => exact hstored s (hst.of_get hfound).1
  | latest contact flowId =>
      obtain ⟨now, newId, rfl⟩ := ht
      obtain ⟨rfl, -⟩ := hp
      match hfound : st.latest now newId contact flowId with
      | .error _ | .ok none => trivial
      | .ok (some s) =>
          dsimp only [Call.after, Call.afterLatest]
          split
          · trivial
          · exact hstored s (hst.of_latest hfound).offers.holds
  | resolve text flowId =>
      obtain ⟨lock, sender, said, rfl, -⟩ := hp
      cases r with
      | none => trivial
      | some flow => exact Option.isSome_of_eq_some (hreg.version?_of_resolve (Eq.symm ht))
  | newId =>
      obtain ⟨lock, flow, rfl⟩ := hp
      exact Function.update_self _ _ _
  | now =>
      rcases hp with ⟨lock, flow, id, rfl⟩ | ⟨lock, hand, rfl⟩ <;> exact h
  | save s =>
      obtain ⟨lock, hand, rfl, -⟩ := hp
      trivial
  | version | turn | ticket =>
      obtain ⟨lock, hand, rfl⟩ := hp
      exact h

end

namespace House

/-! ### What every step keeps -/

/-- What every step of a house keeps, since the start. -/
structure Sound (setting : Setting) (start h : House) : Prop where
  hall : h.hall.Sound
  posted : h.Posted
  leads {k : Nat} {j : Job} (hj : h.hall.jobs k = some j) :
    (j.call.program setting).Leads (j.log.map Exchange.plain) j.rest
  tasks {k : Nat} {j : Job} (hj : h.hall.jobs k = some j) : j.phase.Pinned h.pinned h.registry
  stored {s : Session} (hs : h.hall.store.Holds s) : h.pinned s.id = some (s.flowId, s.flowVersion)
  unpinned {id : String} (ho : h.hall.owner id = none) : h.pinned id = none
  /-- The registry has the versions of the sessions that were begun since. -/
  known {id flowId : String} {version : Int} (hp : h.pinned id = some (flowId, version))
    (ho : start.hall.owner id = none) : (h.registry.version? flowId version).isSome

theorem Opening.sound {h : House} (ho : h.Opening) : Sound setting h h where
  hall := ho.hall.sound
  posted := ho.posted
  leads {k} _ hj := nomatch (ho.hall.jobs k).symm.trans hj
  tasks {k} _ hj := nomatch (ho.hall.jobs k).symm.trans hj
  stored := ho.pinned
  unpinned := ho.unpinned
  known hp hn := by
    rw [ho.unpinned hn] at hp
    cases hp

variable {start h h' : House} {k : Nat} {j : Job} {op : Op} {r : op.Reply} {ph : Phase}

/-- The id of a session that is begun is none of those that are pinned. -/
theorem Sound.pinnedAfter_eq (hs : Sound setting start h) (ha : h.hall.Admits k op r) (ph : Phase)
    {id : String} {key : String × Int} (hp : h.pinned id = some key) :
    pinnedAfter h.pinned ph op r id = some key := by
  cases op with
  | newId =>
      have hnew : h.pinned r = none := hs.unpinned ha
      dsimp only [pinnedAfter]
      cases ph.flow? with
      | none => exact hp
      | some flow =>
          refine (Function.update_of_ne (fun he => ?_) _ _).trans hp
          rw [he, hnew] at hp
          cases hp
  | _ => exact hp

/-- What is pinned then was pinned before, or is the version of the session that is begun. -/
theorem of_pinnedAfter {pinned : String → Option (String × Int)} {call : Call}
    (hp : call.Permits ph op) {id : String} {key : String × Int}
    (hpin : pinnedAfter pinned ph op r id = some key) :
    pinned id = some key ∨ ∃ lock flow, ph = .chosen lock flow ∧ key = (flow.id, flow.version) := by
  cases op with
  | newId =>
      obtain ⟨lock, flow, rfl⟩ := hp
      have hpin : Function.update pinned r (some (flow.id, flow.version)) id = some key := hpin
      by_cases hid : id = r
      · subst hid
        rw [Function.update_self] at hpin
        exact .inr ⟨lock, flow, rfl, (Option.some.inj hpin).symm⟩
      · rw [Function.update_of_ne hid] at hpin
        exact .inl hpin
  | _ => exact .inl hpin

/-- An id that was never given to a session is pinned to nothing. -/
theorem Sound.unpinned_answer (hs : Sound setting start h) {call : Call} (hp : call.Permits ph op)
    {id : String} (ho : Hall.ownerAfter h.hall.owner call op r id = none) :
    pinnedAfter h.pinned ph op r id = none := by
  cases op with
  | newId =>
      obtain ⟨lock, flow, rfl⟩ := hp
      have ho : Function.update h.hall.owner r (some call.sender.id) id = none := ho
      have hid : id ≠ r := by
        rintro rfl
        rw [Function.update_self] at ho
        cases ho
      rw [Function.update_of_ne hid] at ho
      exact (Function.update_of_ne hid _ _).trans (hs.unpinned ho)
  | _ => exact hs.unpinned ho

/-- What is stored is on the version that it was begun on. -/
theorem Sound.stored_answer (hs : Sound setting start h) {next : op.Reply → InboxProgram Unit}
    (hj : h.hall.jobs k = some j) (hr : j.rest = .request op next) (ha : h.hall.Admits k op r)
    {s : Session} (hst : (storeAfter h.hall.store op).Holds s) :
    pinnedAfter h.pinned j.phase op r s.id = some (s.flowId, s.flowVersion) := by
  cases op with
  | save s' =>
      obtain ⟨lock, hand, hph, hf⟩ := (hs.hall.permits hj hr).1
      rcases Store.Holds.of_save (hs.hall.timely_of_follows hj hph hf) hst with rfl | hst
      · have hpinned := hs.tasks hj
        rw [hph] at hpinned
        have hpinned : h.pinned hand.session.id = _ := hpinned
        rw [← hf.id, ← hf.flowId, ← hf.flowVersion] at hpinned
        exact hpinned
      · exact hs.stored hst
  | delete id => exact hs.stored (Store.contains_delete.mp hst).2
  | _ => exact hs.pinnedAfter_eq ha j.phase (hs.stored hst)

/-- A sound house stays so whatever a task asks and is replied. -/
theorem Sound.asks (hs : Sound setting start h) {next : op.Reply → InboxProgram Unit}
    (hj : h.hall.jobs k = some j) (hr : j.rest = .request op next) (ht : h.Tells op r)
    (ha : h.hall.Admits k op r) : Sound setting start (h.answer k j op r (next r)) := by
  have hp := (hs.hall.permits hj hr).1
  have htells := hs.posted.tells ht
  have hstep : Step setting h (h.answer k j op r (next r)) := .asks hj hr r ht ha
  have hhall : Hall.Step setting h.registry h.hall (h.answer k j op r (next r)).hall :=
    .asks hj hr r htells ha
  -- a session that is begun in this step is pinned under an id that is none of the others
  have hle (id : String) (key : String × Int) (hpin : h.pinned id = some key) :=
    hs.pinnedAfter_eq ha j.phase hpin
  refine ⟨hs.hall.step hhall, hs.posted.step hstep, fun {k' j'} hj' => ?_, fun {k' j'} hj' => ?_,
    hs.stored_answer hj hr ha, hs.unpinned_answer hp, fun {id flowId version} hpin ho => ?_⟩
  · rcases Hall.jobs_update hj' with ⟨-, rfl⟩ | ⟨-, hj'⟩
    · have hleads := hs.leads hj
      rw [hr] at hleads
      simpa [Job.told, Exchange.plain] using hleads.told r
    · exact hs.leads hj'
  · rcases Hall.jobs_update hj' with ⟨-, rfl⟩ | ⟨-, hj'⟩
    · rw [j.phase_told]
      exact ((hs.tasks hj).mono hle fun _ _ hv => hv).after hp htells hs.hall.store
        hs.posted.registry
        fun s hst => hle _ _ (hs.stored hst)
    · exact (hs.tasks hj').mono hle fun _ _ hv => hv
  · rcases of_pinnedAfter hp hpin with hpin | ⟨lock, flow, hph, hkey⟩
    · exact hs.known hpin ho
    · have hchosen := hs.tasks hj
      rw [hph] at hchosen
      cases hkey
      exact hchosen

/-- **Every step keeps a house sound.** -/
theorem Sound.step (hs : Sound setting start h) (hstep : Step setting h h') :
    Sound setting start h' := by
  have hposted := hs.posted.step hstep
  obtain ⟨fs, hb, -⟩ := hstep.becomes
  have hknown (id : String) (version : Int) (hv : (h.registry.version? id version).isSome) :=
    hb.version?_isSome hv
  cases hstep with
  | publishes | withdraws =>
      exact ⟨hs.hall, hposted, hs.leads, fun hj => (hs.tasks hj).mono (fun _ _ hp => hp) hknown,
        hs.stored, hs.unpinned, fun hp ho => hknown _ _ (hs.known hp ho)⟩
  | begins k call hk =>
      have hhall : Hall.Step setting h.registry h.hall (h.hall.start setting k call) :=
        .begins k call hk
      refine ⟨hs.hall.step hhall, hposted, fun {k' j'} hj' => ?_, fun {k' j'} hj' => ?_, hs.stored,
        hs.unpinned, hs.known⟩ <;> rcases Hall.jobs_update hj' with ⟨-, rfl⟩ | ⟨-, hj'⟩
      · exact .here _
      · exact hs.leads hj'
      · cases call <;> trivial
      · exact hs.tasks hj'
  | @comes k j lock next hj hr hv =>
      have hhall : Hall.Step setting h.registry h.hall (h.hall.come k lock) := .comes hj hr hv
      exact ⟨hs.hall.step hhall, hposted, hs.leads, hs.tasks, hs.stored, hs.unpinned, hs.known⟩
  | asks hj hr r ht ha => exact hs.asks hj hr ht ha

/-- A sound house stays so in every run. -/
theorem Sound.reaches (hs : Sound setting start h) (hr : Reaches setting h h') :
    Sound setting start h' := by
  induction hr with
  | refl => exact hs
  | tail _ hstep ih => exact ih.step hstep

/-! ### What was told, and when -/

/-- A session keeps its version in every run. -/
theorem Sound.pinned_reaches (hs : Sound setting start h) (hr : Reaches setting h h') {id : String}
    {key : String × Int} (hp : h.pinned id = some key) : h'.pinned id = some key := by
  induction hr with
  | refl => exact hp
  | tail hr hstep ih =>
      cases hstep with
      | asks hj _ _ _ ha => exact (hs.reaches hr).pinnedAfter_eq ha _ ih
      | _ => exact ih

/-- Whose session an id is stays known. -/
theorem Sound.owner_reaches (hs : Sound setting start h) (hr : Reaches setting h h')
    {id contact : String} (ho : h.hall.owner id = some contact) :
    h'.hall.owner id = some contact := by
  induction hr with
  | refl => exact ho
  | tail hr hstep ih =>
      rcases hstep.hall (hs.reaches hr).posted with he | hhall
      · rw [he]
        exact ih
      · exact hhall.before.owner ih

/-- **Whatever a task was told, it was told on the way**, when it had been told what stands before.
-/
theorem told_of_reaches (ho : start.Opening) (hr : Reaches setting start h)
    (hj : h.hall.jobs k = some j) {before since : List Exchange}
    (hlog : j.log = before ++ ⟨op, r⟩ :: since) :
    ∃ h₀ next, Reaches setting start h₀ ∧ Reaches setting h₀ h ∧
      h₀.hall.jobs k = some ⟨j.call, before, .request op next⟩ ∧ h₀.Tells op r ∧
        h₀.hall.Admits k op r := by
  induction hr generalizing j since with
  | refl => exact nomatch (ho.hall.jobs k).symm.trans hj
  | @tail h h' hr hstep ih =>
      have hold {j' : Job} {since' : List Exchange} (hj' : h.hall.jobs k = some j')
        (hcall : j'.call = j.call)
          (hlog' : j'.log = before ++ ⟨op, r⟩ :: since') :
          ∃ h₀ next, Reaches setting start h₀ ∧ Reaches setting h₀ h' ∧
            h₀.hall.jobs k = some ⟨j.call, before, .request op next⟩ ∧ h₀.Tells op r ∧
            h₀.hall.Admits k op r := by
        obtain ⟨h₀, next, h₁, h₂, htold⟩ := ih hj' hlog'
        exact ⟨h₀, next, h₁, h₂.tail hstep, hcall ▸ htold⟩
      cases hstep with
      | publishes | withdraws | comes => exact hold hj rfl hlog
      | begins k' call hk =>
          rcases Hall.jobs_update hj with ⟨-, rfl⟩ | ⟨-, hj⟩
          · cases before <;> cases hlog
          · exact hold hj rfl hlog
      | @asks k' j' op' next hj' hrest r' ht ha =>
          rcases Hall.jobs_update hj with ⟨rfl, rfl⟩ | ⟨-, hj⟩
          · have hlog : j'.log ++ [⟨op', r'⟩] = before ++ ⟨op, r⟩ :: since := hlog
            -- this was told in the last step, or before it
            rcases List.eq_nil_or_concat since with rfl | ⟨since, last, rfl⟩
            · obtain ⟨rfl, he⟩ := List.append_inj' hlog rfl
              cases he
              exact ⟨h, next, hr, .single (.asks hj' hrest _ ht ha),
                by rw [hj', ← hrest]; rfl, ht, ha⟩
            · rw [List.concat_eq_append, ← List.cons_append, ← List.append_assoc] at hlog
              exact hold hj' rfl (List.append_inj' hlog rfl).1
          · exact hold hj rfl hlog

/-! ### Versions are pinned -/

/-- The session is stored, or a task has it in hand. -/
def Knows (h : House) (s : Session) : Prop :=
  h.hall.store.Holds s ∨
    ∃ k j lock hand, h.hall.jobs k = some j ∧ j.phase = .holding lock hand ∧ hand.session = s

/-- The id was given to a session that was begun here. -/
def Begins (h : House) (id : String) : Prop :=
  ∃ k j, h.hall.jobs k = some j ∧ (⟨.newId, id⟩ : Exchange) ∈ j.log

/-- A session that the house knows is pinned to its version. -/
theorem Sound.pinned_of_knows (hs : Sound setting start h) {s : Session} (hk : h.Knows s) :
    h.pinned s.id = some (s.flowId, s.flowVersion) := by
  rcases hk with hst | ⟨k, j, lock, hand, hj, hph, rfl⟩
  · exact hs.stored hst
  · have hpinned := hs.tasks hj
    rw [hph] at hpinned
    exact hpinned

/-- The id of a session that was begun here was new. -/
theorem owner_of_begins (ho : start.Opening) (hr : Reaches setting start h) {id : String}
    (hb : h.Begins id) : start.hall.owner id = none := by
  obtain ⟨k, j, hj, hmem⟩ := hb
  obtain ⟨before, since, hlog⟩ := List.append_of_mem hmem
  obtain ⟨h₀, _, hr₀, -, -, -, hnew⟩ := told_of_reaches ho hr hj hlog
  have hnew : h₀.hall.owner id = none := hnew
  cases howner : start.hall.owner id with
  | none => rfl
  | some contact =>
      rw [ho.sound.owner_reaches hr₀ howner] at hnew
      cases hnew

/-- A turn that a task takes with a session, from the house where it starts: the task has the
session in hand and asks for its version. -/
structure TakesTurn (setting : Setting) (h₀ h : House) (k : Nat) (j : Job) (before : List Exchange)
    (s : Session) (flow? : Option Flow) (since : List Exchange) : Prop where
  later : Reaches setting h₀ h
  asks : ∃ next, h₀.hall.jobs k =
    some ⟨j.call, before, .request (.version s.flowId s.flowVersion) next⟩
  hand : ∃ lock, j.call.phase before = .holding lock { session := s }
  /-- The runner is one of the index made last for the version of the session. -/
  runner : (h₀.runners.pick h₀.registry s.flowId s.flowVersion).1.map (·.index) =
    newest? h₀.published s.flowId s.flowVersion
  flow : flow? = (newest? h₀.published s.flowId s.flowVersion).map (·.flow)
  /-- All that the task does from then on is the turn on that flow, and what follows it. -/
  runs : ∃ contact text flowId sessionId, j.call = .message contact text flowId sessionId ∧
    (Task.leaving contact.id (flow?.elim (orphaned s) (converse setting s text))).Leads
      (since.map Exchange.plain) j.rest

/-- **What a task is told for a version starts a turn** with the session in hand, on the index made
last. -/
theorem takesTurn_of_log (ho : start.Opening) (hr : Reaches setting start h)
    (hj : h.hall.jobs k = some j) {before since : List Exchange} {id : String} {version : Int}
    {flow? : Option Flow} (hlog : j.log = before ++ ⟨.version id version, flow?⟩ :: since) :
    ∃ h₀ s, Reaches setting start h₀ ∧ TakesTurn setting h₀ h k j before s flow? since ∧
      id = s.flowId ∧ version = s.flowVersion ∧ (h.Begins s.id → flow? ≠ none) := by
  obtain ⟨h₀, next, hr₀, hlater, hj₀, htold, -⟩ := told_of_reaches ho hr hj hlog
  have hs₀ := ho.sound.reaches hr₀
  have hleads := (ho.sound.reaches hr).leads hj
  rw [hlog, List.map_append, List.map_cons] at hleads
  obtain ⟨next', hbefore, hsince⟩ := hleads.split
  obtain ⟨contact, text, flowId, sessionId, s, hcall, hph, rfl, rfl, hnext⟩ :=
    version_of_leads hbefore
  have hpick := hs₀.posted.index_pick s.flowId s.flowVersion
  have hflow : flow? = (newest? h₀.published s.flowId s.flowVersion).map (·.flow) := by
    rw [← hpick, Option.map_map]
    exact htold
  refine ⟨h₀, s, hr₀, ⟨hlater, ⟨next, hj₀⟩, ⟨_, hph⟩, hpick, hflow, contact, text,
    flowId, sessionId, hcall, ?_⟩, rfl, rfl, fun hb hnone => ?_⟩
  · have hreply := hnext flow?
    exact hreply ▸ hsince
  -- the version of a session that was begun here was known then, and the registry forgets none
  · have hpinned := hs₀.pinned_of_knows (.inr ⟨k, _, _, _, hj₀, hph, rfl⟩)
    have hknown := hs₀.known hpinned (owner_of_begins ho hr hb)
    rw [Registry.version?, hs₀.posted.newest, ← hflow, hnone] at hknown
    cases hknown

/-- **Versions are pinned, and the runners that are kept do not show.**  However flows are published
and taken back while messages are handled:

* a session that is stored or in hand is on the same version ever after;
* every request of a turn is made in a turn that runs on the index made last, when it started, for
  the very version of the session in hand;
* every task that is told something for a version takes such a turn, also one that makes no
  requests;
* a message that is refused for want of a version is one for a session that was not begun here. -/
theorem versions_are_pinned (ho : start.Opening) (hr : Reaches setting start h) :
    (∀ h' s s', Reaches setting h h' → h.Knows s → h'.Knows s' → s'.id = s.id →
      s'.flowId = s.flowId ∧ s'.flowVersion = s.flowVersion) ∧
    ∀ k j, h.hall.jobs k = some j →
      (∀ op next, j.rest = .request (.turn op) next → ∃ h₀ before s flow since,
        Reaches setting start h₀ ∧ TakesTurn setting h₀ h k j before s (some flow) since) ∧
      (∀ before id version flow? since, j.log = before ++ ⟨.version id version, flow?⟩ :: since →
        ∃ h₀ s, Reaches setting start h₀ ∧ TakesTurn setting h₀ h k j before s flow? since ∧
          id = s.flowId ∧ version = s.flowVersion) ∧
      ∀ contact text flowId sessionId id version,
        j.call = .message contact text flowId sessionId →
        (handle setting contact text flowId sessionId).Comes (j.log.map Exchange.plain)
          (.refused (.notRegistered id version)) →
        ∃ h₀ before s since, Reaches setting start h₀ ∧
          TakesTurn setting h₀ h k j before s none since ∧ id = s.flowId ∧ version = s.flowVersion ∧
          ¬ h.Begins s.id := by
  refine ⟨fun h' s s' hr' hs hs' hid => ?_, fun k j hj => ⟨fun op next hrest => ?_,
    fun before id version flow? since hlog => ?_,
    fun contact text flowId sessionId id version hcall hc => ?_⟩⟩
  · have hsound := ho.sound.reaches hr
    have hpinned := hsound.pinned_reaches hr' (hsound.pinned_of_knows hs)
    rw [← hid, (hsound.reaches hr').pinned_of_knows hs'] at hpinned
    exact Prod.ext_iff.mp (Option.some.inj hpinned)
  · have hleads := (ho.sound.reaches hr).leads hj
    rw [hrest] at hleads
    obtain ⟨before, s, flow, since, hlog⟩ := turn_of_leads hleads
    obtain ⟨h₀, s, hr₀, hturn, -⟩ := takesTurn_of_log ho hr hj hlog
    exact ⟨h₀, before, s, flow, since, hr₀, hturn⟩
  · obtain ⟨h₀, s, hr₀, hturn, hid, hversion, -⟩ := takesTurn_of_log ho hr hj hlog
    exact ⟨h₀, s, hr₀, hturn, hid, hversion⟩
  · obtain ⟨before, since, hlog⟩ := refused_of_comes hc
    obtain ⟨h₀, s, hr₀, hturn, hid, hversion, hbegun⟩ := takesTurn_of_log ho hr hj hlog
    exact ⟨h₀, before, s, since, hr₀, hturn, hid, hversion, fun hb => hbegun hb rfl⟩

/-! A session of the greeting is stored.  The greeting is published, again under another name, and
in a later version; the stored session goes on with the second, while another contact begins one on
the later version, which is taken back meanwhile. -/

/-- The greeting under another name. -/
def greetingRenamed : Flow := { Turn.greeting with name := "Welcome" }

/-- The greeting in a later version. -/
def greetingLater : Flow := { Turn.greeting with version := 2 }

/-- A house whose store has a session of the greeting. -/
def greetingHouse : House where
  hall := { store := Store.save {} Hall.greetingBegun
            owner := fun id => if id = "s1" then some "ana" else none }
  pinned := fun id => if id = "s1" then some ("greeting", 1) else none

theorem timely_greetingBegun : Hall.greetingBegun.Timely :=
  ⟨Hall.utc_noon (by decide), Hall.utc_noon (by decide), nofun⟩

theorem opening_greetingHouse : greetingHouse.Opening := by
  have hst : greetingHouse.hall.store.Sound :=
    Store.sound_empty.save timely_greetingBegun fun _ hs => nomatch hs.row
  have honly {s : Session} (hs : greetingHouse.hall.store.Holds s) : s = Hall.greetingBegun :=
    (Store.Holds.of_save timely_greetingBegun hs).resolve_right fun hs => nomatch hs.row
  refine ⟨⟨hst, fun hs => ?_, rfl, fun _ => rfl⟩, rfl, rfl, rfl, fun hs => ?_, fun {id} ho => ?_⟩
  · rw [honly hs]
    rfl
  · rw [honly hs]
    rfl
  · have ho : (if id = "s1" then some "ana" else none) = none := ho
    split at ho
    · cases ho
    · next hid => exact if_neg hid

theorem reaches_greetingHouse : ∃ h j₀ j₁, Reaches ⟨{}, {}⟩ greetingHouse h ∧
    h.registry.get? "greeting" = none ∧ h.hall.jobs 0 = some j₀ ∧ h.hall.jobs 1 = some j₁ ∧
    (∃ before since, j₀.log = before ++ ⟨.version "greeting" 1, some greetingRenamed⟩ :: since) ∧
    (∃ before since, j₁.log = before ++ ⟨.version "greeting" 2, some greetingLater⟩ :: since) ∧
    ∃ op next, j₁.rest = .request (.turn op) next := by
  have hstored : (Store.save {} Hall.greetingBegun).Holds Hall.greetingBegun :=
    (Store.holds_save timely_greetingBegun).mpr (.inl ⟨by decide, rfl⟩)
  have hother : Hall.greetingBegun.contact.id ≠ "bia" := by decide
  have hr : Reaches ⟨{}, {}⟩ greetingHouse greetingHouse := .refl
  -- three flows are published under one id, and two contacts write
  have hr := hr.tail (.publishes (f := Turn.greeting) rfl)
  have hr := hr.tail (.publishes (f := greetingRenamed) rfl)
  have hr := hr.tail (.publishes (f := greetingLater) rfl)
  have hr := hr.tail (.begins 0 (.message { id := "ana" } (some "hi") "" "s1") rfl)
  have hr := hr.tail (@Step.comes _ _ 0 _ "ana" _ rfl rfl (by decide))
  have hr := hr.tail (@Step.asks _ _ 0 _ (.acquire "ana") _ rfl rfl true trivial
    (show Locks.isInside _ _ _ = true by decide))
  have hr := hr.tail (@Step.asks _ _ 0 _ (.load "s1") _ rfl rfl (.ok (some Hall.greetingBegun))
    ⟨Hall.noon 0, "", (hstored.get _ _).symm⟩ trivial)
  have hr := hr.tail (@Step.asks _ _ 0 _ (.version "greeting" 1) _ rfl rfl
    (some greetingRenamed) rfl
    trivial)
  have hr := hr.tail (.begins 1 (.message { id := "bia" } (some "hi") "" "") rfl)
  have hr := hr.tail (@Step.comes _ _ 1 _ "bia" _ rfl rfl (by decide))
  have hr := hr.tail (@Step.asks _ _ 1 _ (.acquire "bia") _ rfl rfl true trivial
    (show Locks.isInside _ _ _ = true by decide))
  have hr := hr.tail (@Step.asks _ _ 1 _ (.latest "bia" "") _ rfl rfl (.ok none)
    ⟨Hall.noon 0, "", (Store.sound_empty.latest_save hother fun _ hs => nomatch hs.row).symm⟩
      trivial)
  have hr := hr.tail (@Step.asks _ _ 1 _ (.resolve "hi" "") _ rfl rfl
    (some greetingLater) rfl trivial)
  have hr := hr.tail (@Step.asks _ _ 1 _ .newId _ rfl rfl "s2" trivial rfl)
  have hr := hr.tail (@Step.asks _ _ 1 _ .now _ rfl rfl (Hall.noon 2)
    (Hall.utc_noon (by decide)) trivial)
  -- the flow is withdrawn before the second contact has its turn
  have hr := hr.tail (.withdraws "greeting")
  have hr := hr.tail (@Step.asks _ _ 1 _ (.version "greeting" 2) _ rfl rfl (some greetingLater) rfl
    trivial)
  have hr := hr.tail (@Step.asks _ _ 1 _ .now _ rfl rfl (Hall.noon 3)
    (Hall.utc_noon (by decide)) trivial)
  exact ⟨_, _, _, hr, rfl, rfl, rfl, ⟨[_, _], [], rfl⟩, ⟨[_, _, _, _, _], [_], rfl⟩, _, _, rfl⟩

theorem versions_are_pinned_greeting : ∃ h j₀ j₁, greetingHouse.Opening ∧
    Reaches ⟨{}, {}⟩ greetingHouse h ∧ h.registry.get? "greeting" = none ∧
    h.hall.jobs 0 = some j₀ ∧ h.hall.jobs 1 = some j₁ ∧
    (∃ h₀ before s since, s.flowId = "greeting" ∧ s.flowVersion = 1 ∧
      TakesTurn ⟨{}, {}⟩ h₀ h 0 j₀ before s (some greetingRenamed) since) ∧
    (∃ h₀ before s since, s.flowId = "greeting" ∧ s.flowVersion = 2 ∧
      TakesTurn ⟨{}, {}⟩ h₀ h 1 j₁ before s (some greetingLater) since) ∧
    ∃ op next, j₁.rest = .request (.turn op) next := by
  obtain ⟨h, j₀, j₁, hr, hgone, hj₀, hj₁, ⟨before₀, since₀, hlog₀⟩,
      ⟨before₁, since₁, hlog₁⟩, hturn⟩ :=
    reaches_greetingHouse
  obtain ⟨-, htasks⟩ := versions_are_pinned opening_greetingHouse hr
  obtain ⟨h₀, s₀, -, hturn₀, hid₀, hversion₀⟩ := (htasks 0 j₀ hj₀).2.1 _ _ _ _ _ hlog₀
  obtain ⟨h₁, s₁, -, hturn₁, hid₁, hversion₁⟩ := (htasks 1 j₁ hj₁).2.1 _ _ _ _ _ hlog₁
  exact ⟨h, j₀, j₁, opening_greetingHouse, hr, hgone, hj₀, hj₁,
    ⟨h₀, before₀, s₀, since₀, hid₀.symm, hversion₀.symm, hturn₀⟩,
    ⟨h₁, before₁, s₁, since₁, hid₁.symm, hversion₁.symm, hturn₁⟩, hturn⟩

end House

end Parley.Inbox
