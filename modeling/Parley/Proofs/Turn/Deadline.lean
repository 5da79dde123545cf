import Parley.Proofs.Number.Rounding
import Parley.Proofs.Rehearsal.Timers
import Parley.Proofs.Turn.Finish

/-!
# The deadline of a turn

A turn may take so many seconds (`budget`).  Its steps are served by acts that take any time, or for
ever, and each step is raced against what is left (`Rehearsal.step_race`).  So a step that the turn
comes to begins where the one before it ended, and ends as it would be left to itself, unless it is
late: then it is given up at the deadline and ends the turn (`Paces`, `paces_travel`).

The `timetable` lists the steps that a tour comes to, with the moments at which they begin and would
end.  The turn is over by the deadline, its late steps and no others are given up, and it times out
when one of its steps is late (`deadline_covers_turn`).
-/

namespace Parley.Turn

open Rehearsal (Act Races race)

variable {W : Type} {serve : (op : Step.Op) → Act W op.Reply} {setting : Step.Setting} {f : Frame}
  {first : Bool} {deadline t clock : Rat} {world : W} {stops : List Stop} {e : Ending} {left : Nat}
  {w : Walk} {n : Flow.Node} {resumed : Bool} {answer : Option String}

/-! ### The time of a turn -/

/-- The seconds that a turn may take; none when it may take for ever. -/
def budget (policy : Policy) (timeout : Option Binary64) : Option Rat :=
  (Policy.positive? (timeout.getD policy.turnTimeout)).bind Binary64.toRat?

theorem deadlineOf_eq (policy : Policy) (timeout : Option Binary64) (start : Rat) :
    deadlineOf policy timeout start = (budget policy timeout).map (start + ·) := rfl

/-- A positive number has a positive value. -/
theorem toRat?_pos {x : Binary64} {q : Rat} (hx : Binary64.zero.lt x = true)
    (hq : x.toRat? = some q) : 0 < q := by
  cases x with
  | nan | infinite => cases hq
  | finite negative r hr =>
    have hzero : Binary64.zero.position? = some 0 := by decide +kernel
    have hpos : (0 : Int) < if negative then -(r : Int) else r := by
      rw [Binary64.lt, hzero] at hx
      exact of_decide_eq_true hx
    cases negative with
    | true =>
      rw [if_pos rfl] at hpos
      omega
    | false =>
      have hmantissa : 0 < Binary64.mantissa r := Binary64.mantissa_pos (by simpa using hpos)
      have hfraction : 0 < (Binary64.fraction r).1 ∧ 0 < (Binary64.fraction r).2 := by
        unfold Binary64.fraction
        split
        · exact ⟨Nat.mul_pos hmantissa (Number.twoTo_pos _), Nat.one_pos⟩
        · exact ⟨hmantissa, Number.twoTo_pos _⟩
      cases hq
      exact div_pos (Nat.cast_pos.mpr hfraction.1) (Nat.cast_pos.mpr hfraction.2)

theorem budget_pos {policy : Policy} {timeout : Option Binary64} {T : Rat}
    (h : budget policy timeout = some T) :
    0 < T := by
  obtain ⟨x, hx, hT⟩ := Option.bind_eq_some_iff.mp h
  unfold Policy.positive? at hx
  split at hx
  · next hpos =>
    cases hx
    exact toRat?_pos hpos hT
  · cases hx

/-! ### Steps and their moments -/

/-- A step that is left to itself. -/
def freely (serve : (op : Step.Op) → Act W op.Reply) (setting : Step.Setting) (n : Flow.Node)
    (session : Session) (answer : Option String) : Act W Step.Outcome :=
  (Step.run setting n session answer).interpret serve

/-- What a tour from a node on does in a race, with so many steps left. -/
def raceFrom (serve : (op : Step.Op) → Act W op.Reply) (first : Bool) (f : Frame) (left : Nat)
    (w : Walk) (n : Flow.Node) (resumed : Bool) (answer : Option String) (t : Rat) (world : W) :
    (List Stop × Ending) × Rat × W :=
  Act.alone ((travel f left w n resumed answer).interpret (race first serve)) t world

/-- A step is raced, and then what is left of the tour. -/
theorem raceFrom_succ : raceFrom serve first f (left + 1) w n resumed answer t world =
    match Act.alone ((step f w.session n answer).interpret (race first serve)) t world with
    | (.error i, m, world') =>
        (([⟨n, resumed, w.session, answer, .cut i⟩], f.interrupt w.stepped n i), m, world')
    | (.ok o, m, world') =>
      match f.settle w.stepped n o with
      | .inl e => (([⟨n, resumed, w.session, answer, .over o⟩], e), m, world')
      | .inr (w', n') =>
        let rest := raceFrom serve first f left w' n' false none m world'
        ((⟨n, resumed, w.session, answer, .over o⟩ :: rest.1.1, rest.1.2), rest.2) := by
  unfold raceFrom
  rw [travel, Program.interpret]
  change Act.alone (((step f w.session n answer).bind _).interpret (race first serve)) t world = _
  rw [Program.interpret_bind, Act.alone_bind]
  obtain ⟨r, m, world'⟩ :=
    Act.alone ((step f w.session n answer).interpret (race first serve)) t world
  cases r with
  | error i => rfl
  | ok o =>
    dsimp only
    cases f.settle w.stepped n o with
    | inl e => rfl
    | inr next =>
      dsimp only
      rw [Program.interpret_bind, Act.alone_bind]
      rfl

/-- A step that a turn comes to. -/
structure Visit where
  stop : Stop
  /-- The moment at which the step begins. -/
  begun : Rat
  /-- The outcome of the step when it is left to itself, and the moment at which it ends; none when
  it never does. -/
  course : Option (Step.Outcome × Rat)

/-- The step is not over when the deadline comes; of two timers of one moment, that of the deadline
goes off first if `first`. -/
def Visit.Late (first : Bool) (deadline : Rat) (v : Visit) : Prop :=
  ∀ o m, v.course = some (o, m) → Act.isBeyond first deadline v.begun m = true

theorem late_of_ends? {free : Option (Step.Outcome × Rat × W)} {st : Stop}
    (h : ∀ o m world', free = some (o, m, world') → Act.isBeyond first deadline t m = true) :
    Visit.Late first deadline ⟨st, t, free.map fun r => (r.1, r.2.1)⟩ := by
  intro o m hcourse
  obtain ⟨⟨o', m', world'⟩, hfree, heq⟩ := Option.map_eq_some_iff.mp hcourse
  cases heq
  exact h _ _ world' hfree

theorem not_late {st : Stop} {o : Step.Outcome} {m : Rat}
    (h : Act.isBeyond first deadline t m = false) :
    ¬ Visit.Late first deadline ⟨st, t, some (o, m)⟩ :=
  fun hlate => absurd (h.symm.trans (hlate o m rfl)) nofun

/-- What becomes of a step. -/
structure Visit.Fares (first : Bool) (deadline : Rat) (v : Visit) : Prop where
  begins : v.begun ≤ deadline
  /-- It is given up if it is late, and only then. -/
  given_up_iff : v.stop.fate = .cut .deadline ↔ v.Late first deadline
  /-- In time it ends as it would be left to itself. -/
  ends : ∀ o m, v.course = some (o, m) → ¬ v.Late first deadline → v.stop.fate = .over o
  /-- What takes no time is in time. -/
  at_once : ∀ o, v.course = some (o, v.begun) → v.stop.fate = .over o

theorem fares_late {st : Stop} {course : Option (Step.Outcome × Rat)} (ht : t ≤ deadline)
    (hf : st.fate = .cut .deadline) (h : Visit.Late first deadline ⟨st, t, course⟩) :
    Visit.Fares first deadline ⟨st, t, course⟩ where
  begins := ht
  given_up_iff := iff_of_true hf h
  ends _ _ _ hin := absurd h hin
  at_once o hcourse := absurd ((Act.isBeyond_self ht).symm.trans (h o t hcourse)) nofun

theorem fares_inTime {st : Stop} {o : Step.Outcome} {m : Rat} (ht : t ≤ deadline)
    (hf : st.fate = .over o) (h : Act.isBeyond first deadline t m = false) :
    Visit.Fares first deadline ⟨st, t, some (o, m)⟩ where
  begins := ht
  given_up_iff := iff_of_false (by simp [hf]) (not_late h)
  ends _ _ hcourse _ := (Prod.mk.inj (Option.some.inj hcourse)).1 ▸ hf
  at_once _ hcourse := (Prod.mk.inj (Option.some.inj hcourse)).1 ▸ hf

/-- The steps of some stops, each of which begins where the one before it ends. -/
def timetable (serve : (op : Step.Op) → Act W op.Reply) (setting : Step.Setting) :
    List Stop → Rat → W → List Visit
  | [], _, _ => []
  | st :: rest, t, world =>
    match Act.ends? (freely serve setting st.node st.session st.answer) t world with
    | some (o, m, world) => ⟨st, t, some (o, m)⟩ :: timetable serve setting rest m world
    | none => [⟨st, t, none⟩]

theorem timetable_single (st : Stop) (t : Rat) (world : W) : timetable serve setting [st] t world =
    [⟨st, t, (Act.ends? (freely serve setting st.node st.session st.answer) t world).map fun r =>
      (r.1, r.2.1)⟩] := by
  rw [timetable]
  split <;> simp [timetable, *]

theorem timetable_cons (st : Stop) {o : Step.Outcome} {m : Rat} {world' : W}
    (h : Act.ends? (freely serve setting st.node st.session st.answer) t world =
      some (o, m, world'))
    (rest : List Stop) :
    timetable serve setting (st :: rest) t world = ⟨st, t, some (o, m)⟩ ::
      timetable serve setting rest m world' := by
  rw [timetable, h]

/-- What a tour does from a node on at a moment, with so many steps left, when its steps are raced.
-/
inductive Paces (serve : (op : Step.Op) → Act W op.Reply) (first : Bool) (deadline : Rat)
    (f : Frame) :
    Nat → Walk → Flow.Node → Bool → Option String → Rat → W → List Stop → Ending → Rat → Prop where
  | exhausted (w : Walk) (n : Flow.Node) (resumed : Bool) (answer : Option String) (t : Rat)
      (world : W) :
      Paces serve first deadline f 0 w n resumed answer t world [] (f.exhaust w n) t
  /-- The step is late. -/
  | late {left : Nat} (w : Walk) (n : Flow.Node) (resumed : Bool) (answer : Option String)
      (t : Rat) (world : W)
      (h : ∀ o m world', Act.ends? (freely serve f.setting n w.session answer) t world =
        some (o, m, world') →
        Act.isBeyond first deadline t m = true) :
      Paces serve first deadline f (left + 1) w n resumed answer t world
        [⟨n, resumed, w.session, answer, .cut .deadline⟩]
          (f.abort w.stepped n Interruption.deadline.reason) deadline
  | ended {left : Nat} (w : Walk) (n : Flow.Node) (resumed : Bool) (answer : Option String)
      (t : Rat) (world : W)
      {o : Step.Outcome} {m : Rat} {world' : W} {e : Ending}
      (h : Act.ends? (freely serve f.setting n w.session answer) t world = some (o, m, world'))
      (hin : Act.isBeyond first deadline t m = false) (hs : Settles f w.stepped n o (.inl e)) :
      Paces serve first deadline f (left + 1) w n resumed answer t world
        [⟨n, resumed, w.session, answer, .over o⟩] e m
  | onward {left : Nat} (w : Walk) (n : Flow.Node) (resumed : Bool) (answer : Option String)
      (t : Rat) (world : W)
      {o : Step.Outcome} {m : Rat} {world' : W} {w' : Walk} {n' : Flow.Node} {stops : List Stop}
        {e : Ending}
      {clock : Rat}
      (h : Act.ends? (freely serve f.setting n w.session answer) t world = some (o, m, world'))
      (hin : Act.isBeyond first deadline t m = false) (hs : Settles f w.stepped n o (.inr (w', n')))
      (rest : Paces serve first deadline f left w' n' false none m world' stops e clock) :
      Paces serve first deadline f (left + 1) w n resumed answer t world
        (⟨n, resumed, w.session, answer, .over o⟩ :: stops) e clock

/-- **Every tour whose steps are raced goes so.** -/
theorem paces_travel (serve : (op : Step.Op) → Act W op.Reply) (first : Bool)
    (hf : f.deadline = some deadline) (left : Nat) (w : Walk) (n : Flow.Node) (resumed : Bool)
    (answer : Option String) (ht : t ≤ deadline) (world : W) :
    ∃ stops e clock last, raceFrom serve first f left w n resumed answer t world =
      ((stops, e), clock, last) ∧
      Paces serve first deadline f left w n resumed answer t world stops e clock := by
  induction left generalizing w n resumed answer t world with
  | zero => exact ⟨_, _, _, _, rfl, .exhausted w n resumed answer t world⟩
  | succ left ih =>
    have hstep : (step f w.session n answer).interpret (race first serve) =
        Act.raced first deadline (freely serve f.setting n w.session answer) :=
      Rehearsal.step_race first serve hf w.session n answer
    have hfares : Act.Fares first deadline t _ _ :=
      Act.alone_raced ht (freely serve f.setting n w.session answer) world
    rw [raceFrom_succ, hstep]
    generalize hfree : Act.ends? (freely serve f.setting n w.session answer) t world =
      free at hfares
    generalize Act.alone (Act.raced first deadline (freely serve f.setting n w.session answer)) t
      world = r at hfares
    -- the step, with all the time that it takes, against what is left until the deadline
    cases hfares with
    | never world' =>
        exact ⟨_, _, _, _, rfl,
          .late w n resumed answer t world fun o m world' h => absurd (hfree.symm.trans h) nofun⟩
    | late hlate world' =>
        refine ⟨_, _, _, _, rfl, .late w n resumed answer t world fun o m world' h => ?_⟩
        cases hfree.symm.trans h
        exact hlate
    | @inTime o m world' hin =>
        have hm : m ≤ deadline := (le_max_right t m).trans (Act.le_of_not_beyond ht hin)
        have hs := settles_settle f w.stepped n o
        dsimp only
        cases hsettle : f.settle w.stepped n o with
        | inl e =>
            rw [hsettle] at hs
            exact ⟨_, _, _, _, rfl, .ended w n resumed answer t world hfree hin hs⟩
        | inr next =>
            obtain ⟨w', n'⟩ := next
            rw [hsettle] at hs
            obtain ⟨stops, e, clock, last, hrest, hpaces⟩ := ih w' n' false none hm world'
            dsimp only
            rw [hrest]
            exact ⟨_, e, clock, last, rfl, .onward w n resumed answer t world hfree hin hs hpaces⟩

/-! ### What a race says of a turn -/

/-- A step that ends the turn ends it with a result, and not because of the time. -/
theorem Settles.finishes {o : Step.Outcome} (h : Settles f w n o (.inl e)) :
    ∃ kept result, e = .finished kept result ∧ result.state ≠ .timeout := by
  cases h <;> exact ⟨_, _, rfl, State.noConfusion⟩

namespace Paces

theorem le_deadline (h : Paces serve first deadline f left w n resumed answer t world stops e clock)
    (ht : t ≤ deadline) : clock ≤ deadline := by
  induction h with
  | exhausted => exact ht
  | late => exact le_refl _
  | ended _ _ _ _ t _ _ hin => exact (le_max_right t _).trans (Act.le_of_not_beyond ht hin)
  | onward _ _ _ _ t _ _ hin _ _ ih =>
      exact ih ((le_max_right t _).trans (Act.le_of_not_beyond ht hin))

/-- Every stop is a visit. -/
theorem map_timetable
    (h : Paces serve first deadline f left w n resumed answer t world stops e clock) :
    (timetable serve f.setting stops t world).map (·.stop) = stops := by
  induction h with
  | exhausted => rfl
  | late => rw [timetable_single, List.map_singleton]
  | @ended _ w n resumed answer _ _ o _ _ _ h =>
    rw [timetable_cons ⟨n, resumed, w.session, answer, .over o⟩ h, timetable, List.map_singleton]
  | @onward _ w n resumed answer _ _ o _ _ _ _ _ _ _ h _ _ _ ih =>
    rw [timetable_cons ⟨n, resumed, w.session, answer, .over o⟩ h, List.map_cons, ih]

/-- Late steps and no others are given up. -/
theorem fares (h : Paces serve first deadline f left w n resumed answer t world stops e clock)
    (ht : t ≤ deadline) :
    ∀ v ∈ timetable serve f.setting stops t world, v.Fares first deadline := by
  induction h with
  | exhausted => exact List.forall_mem_nil _
  | late w n resumed answer t world h =>
    rw [timetable_single, List.forall_mem_singleton]
    exact fares_late ht rfl (late_of_ends? h)
  | @ended _ w n resumed answer _ _ o _ _ _ h hin =>
    rw [timetable_cons ⟨n, resumed, w.session, answer, .over o⟩ h, timetable,
      List.forall_mem_singleton]
    exact fares_inTime ht rfl hin
  | @onward _ w n resumed answer t _ o _ _ _ _ _ _ _ h hin _ _ ih =>
    rw [timetable_cons ⟨n, resumed, w.session, answer, .over o⟩ h, List.forall_mem_cons]
    exact ⟨fares_inTime ht rfl hin, ih ((le_max_right t _).trans (Act.le_of_not_beyond ht hin))⟩

/-- The turn has a result, and times out when one of its steps is late. -/
theorem result (h : Paces serve first deadline f left w n resumed answer t world stops e clock) :
    ∃ kept result, e = .finished kept result ∧
      (result.state = .timeout ↔ ∃ v ∈ timetable serve f.setting stops t world,
        v.Late first deadline) ∧
      (result.state = .timeout → result.error = Interruption.deadline.reason) := by
  induction h with
  | exhausted => exact ⟨_, _, rfl, by simp [timetable], nofun⟩
  | late w n resumed answer t world h =>
    refine ⟨_, _, rfl, ?_, fun _ => rfl⟩
    rw [timetable_single]
    exact iff_of_true rfl ⟨_, List.mem_singleton_self _, late_of_ends? h⟩
  | @ended _ w n resumed answer _ _ o _ _ _ h hin hs =>
    obtain ⟨kept, result, rfl, hstate⟩ := hs.finishes
    refine ⟨kept, result, rfl, ?_, fun htimeout => absurd htimeout hstate⟩
    rw [timetable_cons ⟨n, resumed, w.session, answer, .over o⟩ h, timetable,
      List.exists_mem_cons_iff]
    exact iff_of_false hstate
      (not_or.mpr ⟨not_late hin, fun ⟨_, hv, _⟩ => absurd hv List.not_mem_nil⟩)
  | @onward _ w n resumed answer t _ o _ _ _ _ _ _ _ h hin _ _ ih =>
    obtain ⟨kept, result, rfl, hstate, herror⟩ := ih
    refine ⟨kept, result, rfl, ?_, herror⟩
    rw [timetable_cons ⟨n, resumed, w.session, answer, .over o⟩ h, hstate, List.exists_mem_cons_iff,
      or_iff_right (not_late hin)]

end Paces

/-! ### Turns without a deadline -/

/-- Without a deadline every step is left to itself, and the turn has a result. -/
theorem travel_unbounded (serve : (op : Step.Op) → Act W op.Reply) (first : Bool)
    (hf : f.deadline = none) (left : Nat) (w : Walk) (n : Flow.Node) (resumed : Bool)
    (answer : Option String) (t : Rat) (world : W) :
    ∃ stops kept result clock last,
      raceFrom serve first f left w n resumed answer t world =
        ((stops, .finished kept result), clock, last) ∧
      result.state ≠ .timeout ∧ ∀ st ∈ stops, ∃ o, st.fate = .over o := by
  induction left generalizing w n resumed answer t world with
  | zero => exact ⟨[], _, _, t, world, rfl, State.noConfusion, List.forall_mem_nil _⟩
  | succ left ih =>
    have hstep : (step f w.session n answer).interpret (race first serve) =
        (freely serve f.setting n w.session answer).bind fun o => .done (.ok o) :=
      Rehearsal.step_unbounded first serve hf w.session n answer
    rw [raceFrom_succ, hstep, Rehearsal.alone_map _ fun o =>
      (.ok o : Except Interruption Step.Outcome)]
    obtain ⟨o, m, world'⟩ := Act.alone (freely serve f.setting n w.session answer) t world
    have hs := settles_settle f w.stepped n o
    dsimp only
    cases hsettle : f.settle w.stepped n o with
    | inl e =>
        rw [hsettle] at hs
        obtain ⟨kept, result, rfl, hstate⟩ := hs.finishes
        exact ⟨_, kept, result, m, world', rfl, hstate, List.forall_mem_singleton.mpr ⟨o, rfl⟩⟩
    | inr next =>
        obtain ⟨w', n'⟩ := next
        obtain ⟨stops, kept, result, clock, last, hrest, hstate, hover⟩ :=
          ih w' n' false none m world'
        dsimp only
        rw [hrest]
        exact ⟨_, kept, result, clock, last, rfl, hstate,
          List.forall_mem_cons.mpr ⟨⟨o, rfl⟩, hover⟩⟩

/-! ### Turns -/

/-- What a race says of a turn that may take until the deadline. -/
structure Covered (serve : (op : Step.Op) → Act W op.Reply) (setting : Step.Setting) (first : Bool)
    (deadline t : Rat) (world : W) (stops : List Stop) (result : Result) (clock : Rat) : Prop where
  /-- The turn is over by the deadline. -/
  ends : clock ≤ deadline
  /-- The steps that the turn comes to begin one where the other ends. -/
  steps : (timetable serve setting stops t world).map (·.stop) = stops
  fares : ∀ v ∈ timetable serve setting stops t world, v.Fares first deadline
  timeout_iff : result.state = .timeout ↔ ∃ v ∈ timetable serve setting stops t world,
    v.Late first deadline
  error : result.state = .timeout → result.error = "turn deadline exceeded"

/-- A turn that ends before its first step. -/
theorem covered_nil {result : Result} (ht : t ≤ deadline) (h : result.state ≠ .timeout) :
    Covered serve setting first deadline t world [] result t where
  ends := ht
  steps := rfl
  fares := List.forall_mem_nil _
  timeout_iff := iff_of_false h fun ⟨_, hv, _⟩ => absurd hv List.not_mem_nil
  error htimeout := absurd htimeout h

/-- What holds of a turn that ends before its first step, and of every tour from a node on, holds of
a turn. -/
theorem alone_tour {now : Calendar.Moment} {session : Session} {message : Option String}
    {timeout : Option Binary64} {P : List Stop → Result → Rat → Prop}
    (hnil : ∀ result : Result, result.state ≠ .timeout → P [] result t)
    (htravel : ∀ left w n resumed answer, ∃ stops kept result clock last,
      raceFrom serve first ⟨setting, now, deadlineOf setting.policy timeout t⟩ left w n resumed
      answer t world = ((stops, .finished kept result), clock, last) ∧ P stops result clock) :
    ∃ stops kept result clock last,
      Act.alone ((tour setting now session message timeout).interpret (race first serve)) t world =
        ((stops, .finished kept result), clock, last) ∧ P stops result clock := by
  unfold tour
  change ∃ stops kept result clock last,
    Act.alone (Program.interpret (race first serve)
      (if session.flowId ≠ setting.flow.id then _ else _)) t world = _ ∧ _
  split
  · exact ⟨[], _, _, t, world, rfl, hnil _ State.noConfusion⟩
  · dsimp only
    split
    · exact ⟨[], _, _, t, world, rfl, hnil _ State.noConfusion⟩
    · exact htravel _ _ _ _ _

/-- What a race says of a turn with a bound on its time, or without one. -/
structure Timed (serve : (op : Step.Op) → Act W op.Reply) (setting : Step.Setting)
    (timeout : Option Binary64) (first : Bool) (start : Rat) (world : W) (stops : List Stop)
    (result : Result) (clock : Rat) : Prop where
  /-- The bound covers the whole turn. -/
  covered : ∀ T, budget setting.policy timeout = some T →
    Covered serve setting first (start + T) start world stops result clock
  /-- Without a bound no step is given up, and the turn does not time out. -/
  unbounded : budget setting.policy timeout = none → result.state ≠ .timeout ∧
    ∀ st ∈ stops, ∃ o, st.fate = .over o

/-- **The deadline covers the whole turn.**  The steps of a turn are served by acts that take any
time or for ever, and their requests are raced against the deadline.  A turn that may take `T`
seconds is over after `T` seconds at the latest.  The steps that it comes to begin one where the
other ends; a step is given up if it is not over when the deadline comes, and only then, and
otherwise ends as it would be left to itself.  The turn times out, as late, when one of its steps is
late, and only then. -/
theorem deadline_covers_turn {around : (op : Op) → Act W op.Reply} (hr : Races first serve around)
    (setting : Step.Setting) (now : Calendar.Moment) (session : Session) (message : Option String)
    (timeout : Option Binary64) (start : Rat) (world : W) :
    ∃ stops kept result clock last,
      Act.alone ((tour setting now session message timeout).interpret around) start world =
        ((stops, .finished kept result), clock, last) ∧
      Act.alone ((run setting now session message timeout).interpret around) start world =
        (.finished kept result, clock, last) ∧
      Timed serve setting timeout first start world stops result clock := by
  have htour : ∃ stops kept result clock last,
      Act.alone ((tour setting now session message timeout).interpret (race first serve))
        start world =
        ((stops, .finished kept result), clock, last) ∧
      Timed serve setting timeout first start world stops result clock := by
    refine alone_tour (fun result hstate =>
      ⟨fun T hT => ?_, fun _ => ⟨hstate, List.forall_mem_nil _⟩⟩)
      fun left w n resumed answer => ?_
    · exact covered_nil (le_add_of_nonneg_right (budget_pos hT).le) hstate
    -- without a budget there is no deadline; with one it is when the budget is spent
    · cases hT : budget setting.policy timeout with
      | none =>
          have hf : (⟨setting, now, deadlineOf setting.policy timeout start⟩ : Frame).deadline =
              none := by
            rw [deadlineOf_eq, hT]
            rfl
          obtain ⟨stops, kept, result, clock, last, hplay, hover⟩ :=
            travel_unbounded serve first hf left w n resumed answer start world
          exact ⟨stops, kept, result, clock, last, hplay, fun T hT' =>
            absurd (hT.symm.trans hT') nofun, fun _ => hover⟩
      | some T =>
          have hf : (⟨setting, now, deadlineOf setting.policy timeout start⟩ : Frame).deadline =
              some (start + T) := by
            rw [deadlineOf_eq, hT]
            rfl
          have hstart : start ≤ start + T := le_add_of_nonneg_right (budget_pos hT).le
          obtain ⟨stops, e, clock, last, hplay, hpaces⟩ :=
            paces_travel serve first hf left w n resumed answer hstart world
          obtain ⟨kept, result, rfl, hstate, herror⟩ := hpaces.result
          refine ⟨stops, kept, result, clock, last, hplay, fun T' hT' => ?_,
            fun hT' => absurd (hT.symm.trans hT') nofun⟩
          obtain rfl := Option.some.inj (hT.symm.trans hT')
          exact ⟨hpaces.le_deadline hstart, hpaces.map_timetable, hpaces.fares hstart,
            hstate, herror⟩
  obtain ⟨stops, kept, result, clock, last, hplay, htimed⟩ := htour
  rw [← hr.alone_eq] at hplay
  refine ⟨stops, kept, result, clock, last, hplay, ?_, htimed⟩
  rw [run_eq_tour, Program.interpret_bind, Act.alone_bind, hplay]
  rfl

/-- Two naps of twenty seconds. -/
def naps : Flow :=
  { id := "naps"
    nodes := [{ id := "start", block := .start {} },
      { id := "first", block := .delay { delaySeconds := .round false 20 1 } },
      { id := "second", block := .delay { delaySeconds := .round false 20 1 } }]
    edges := [{ source := "start", target := "first" }, { source := "first", target := "second" }] }

/-- The naps under the standard policy, with no collaborators. -/
def napsSetting : Step.Setting := ⟨naps, {}, {}⟩

/-- A new session of the naps. -/
def napper : Session := { newcomer with flowId := "naps" }

/-- In a rehearsal the second nap is cut short after half a minute. -/
theorem deadline_covers_turn_naps :
    Races false Rehearsal.playFreely (Rehearsal.playTurn {}) ∧
      ∃ stops kept result last,
        Act.alone (Rehearsal.turn napsSetting newYear napper none none {}) 0 ⟨{}, []⟩ =
          (.finished kept result, 30, last) ∧
        result.error = "turn deadline exceeded" ∧
        ∃ v ∈ timetable Rehearsal.playFreely napsSetting stops 0 ⟨{}, []⟩, v.Late false 30 := by
  obtain ⟨stops, kept, result, clock, last, -, hrun, htimed⟩ :=
    deadline_covers_turn Rehearsal.races_playTurn napsSetting newYear napper none none 0 ⟨{}, []⟩
  have hbudget : budget napsSetting.policy none = some 30 := by decide +kernel
  have hvalue : (Act.alone (Rehearsal.turn napsSetting newYear napper none none {}) 0
    ⟨{}, []⟩).1.result?.map
        (·.state) = some .timeout ∧
      (Act.alone (Rehearsal.turn napsSetting newYear napper none none {}) 0 ⟨{}, []⟩).2.1 = 30 := by
        decide +kernel
  unfold Rehearsal.turn at hvalue ⊢
  rw [hrun] at hvalue ⊢
  obtain ⟨hstate, rfl⟩ := hvalue
  have hcovered := htimed.covered 30 hbudget
  have hlate := hcovered.timeout_iff.mp (Option.some.inj hstate)
  rw [zero_add] at hlate
  exact ⟨Rehearsal.races_playTurn, stops, kept, result, last, rfl,
    hcovered.error (Option.some.inj hstate), hlate⟩

end Parley.Turn
