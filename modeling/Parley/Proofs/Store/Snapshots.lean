import Parley.Proofs.Session.Document
import Parley.Proofs.Requests
import Parley.Proofs.Store.Sound
import Parley.Proofs.Turn.Stamp

/-!
# Snapshots of sessions

A session is stored as it is when its variables are (`Session.Plain`: their numbers are finite, and
they do not nest too deep) and documents can hold its moments (`Session.Written`).  Such a session
is told by the store as it was saved, and to save it again changes nothing (`Store.put_put`).  The
store itself tells no other moments, wherever its documents come from (`Store.written_of_get`).

So for a conversation whose variables stay plain it makes no difference whether its session is kept
in hand from turn to turn (`Turn.talk`) or is stored after every turn and looked up before the next
(`Turn.talkStored`): the same exchanges lead both to the same ends (`Turn.comes_talkStored_iff`).

What is not plain is not stored as it is, or not at all (`Store.snapshots_leave_out`).
-/

namespace Parley

open Calendar

/-! ### One session -/

namespace Store

variable {st : Store} {s : Session}

theorem joinId_joinId (ids : List String) (id : String) :
    joinId (joinId ids id) id = joinId ids id := by
  have hmem : id ∈ joinId ids id := mem_joinId.mpr (.inr rfl)
  rw [joinId, if_pos hmem]

/-- Of two sessions that are put one after the other under one id and for one contact the later
counts. -/
theorem put_put {s' : Session} (hid : s'.id = s.id) (hc : s'.contact.id = s.contact.id) :
    (st.put s).put s' = st.put s' := by
  unfold put
  dsimp only
  rw [hid, hc, Entries.put_put_self, Entries.put_put_self, idsOf, Entries.get?_put, if_pos rfl,
    Option.getD_some, joinId_joinId]

/-- **A plain session is told as it was saved.** -/
theorem get_save_self (hp : s.Plain) (hw : s.Written) (now : Moment) (newId : String) :
    (st.save s).get now newId s.id = .ok (some s) := by
  rw [save_of_plain hp]
  exact get_of_row (by rw [rows_put, Entries.get?_put, if_pos rfl]) hw now newId

theorem restore_eq_ok_iff {now : Moment} {newId : String} {row : Value} :
    restore now newId row = .ok s ↔ Session.ofValue now newId row = .ok s := by
  unfold restore
  cases Session.ofValue now newId row <;> simp [Schema.Checked.toExcept, Except.mapError]

/-- The store tells only sessions that documents can hold, wherever its documents come from. -/
theorem written_of_get {now : Moment} {newId id : String} (h : st.get now newId id = .ok (some s))
    (hnow : now.Written) : s.Written := by
  obtain ⟨row, -, hs⟩ := row_of_get h
  exact Session.written_of_ofValue (restore_eq_ok_iff.mp hs) hnow

end Store

/-! ### A conversation -/

namespace Turn

/-- A turn that is to be taken. -/
structure Call where
  setting : Step.Setting
  now : Moment
  message : Option String
  timeout : Option Binary64 := none

/-- The turns of a conversation, with the session kept in hand. -/
def talk : Session → List Call → TurnProgram (List Ending)
  | _, [] => .done []
  | s, c :: rest => (run c.setting c.now s c.message c.timeout).bind fun e =>
      (talk e.session rest).bind fun es => .done (e :: es)

/-- The turns of a conversation, with the session looked up before each of them and saved after it;
they are over when there is no session. -/
def talkStored (newId id : String) : Store → List Call → TurnProgram (List Ending)
  | _, [] => .done []
  | st, c :: rest =>
    match st.get c.now newId id with
    | .ok (some s) => (run c.setting c.now s c.message c.timeout).bind fun e =>
        (talkStored newId id (st.save e.session) rest).bind fun es => .done (e :: es)
    | _ => .done []

/-- **A conversation through the store is the conversation in hand**, as long as its variables are
plain: the same exchanges lead to the same ends. -/
theorem comes_talkStored_iff {st : Store} {s : Session} {newId id : String} {calls : List Call}
    {log : List (Program.Exchange Op Op.Reply)} {es : List Ending}
    (hget : ∀ now, st.get now newId id = .ok (some s)) (hid : s.id = id) (hs : s.Written)
    (hnow : ∀ c ∈ calls, c.now.Written) (hes : ∀ e ∈ es, e.session.Plain) :
    (talkStored newId id st calls).Comes log es ↔ (talk s calls).Comes log es := by
  induction calls generalizing st s log es with
  | nil => rfl
  | cons c rest ih =>
      rw [talkStored, hget, talk, Program.comes_bind_iff, Program.comes_bind_iff]
      -- both take the same turn, and it is how they go on that has to be compared
      refine exists_congr fun log₁ => exists_congr fun log₂ => exists_congr fun e =>
        and_congr_right fun _ => and_congr_right fun he => ?_
      rw [Program.comes_bind_iff, Program.comes_bind_iff]
      refine exists_congr fun log₃ => exists_congr fun log₄ => exists_congr fun es' =>
        and_congr_right fun _ => and_congr_left fun hdone => ?_
      obtain ⟨-, rfl⟩ := Program.comes_done_iff.mp hdone
      have hstamped := stamped_of_ends he.ends
      have hwritten : e.session.Written := hstamped.written hs (hnow c List.mem_cons_self)
      have hsame : e.session.id = id := hstamped.id.trans hid
      refine ih (fun now => ?_) hsame hwritten (fun c hc => hnow c (List.mem_cons_of_mem _ hc))
        fun e he => hes e (List.mem_cons_of_mem _ he)
      rw [← hsame]
      exact Store.get_save_self (hes e List.mem_cons_self) hwritten now newId

end Turn

namespace Store

/-- **A session is told as it was saved**, in every field, when its variables are plain and
documents can hold its moments; to save again what is told changes nothing in the store; and a
conversation whose session is saved and looked up between the turns makes the same exchanges and
comes to the same ends as the conversation whose session is kept in hand, as long as its variables
stay plain.  Documents can hold the moments of every session that a store tells, whatever documents
it was opened with. -/
theorem snapshots_round_trip (st : Store) {s : Session} (hp : s.Plain) (hs : s.Written)
    (newId : String) :
    s.checkFit = .ok () ∧
      (∀ now, (st.save s).get now newId s.id = .ok (some s)) ∧
      (∀ now s', (st.save s).get now newId s.id = .ok (some s') →
        s'.checkFit = .ok () ∧ (st.save s).save s' = st.save s) ∧
      (∀ calls : List Turn.Call, (∀ c ∈ calls, c.now.Written) →
        ∀ log es, (∀ e ∈ es, e.session.Plain) →
          ((Turn.talkStored newId s.id (st.save s) calls).Comes log es ↔
            (Turn.talk s calls).Comes log es)) ∧
      ∀ now id s', now.Written → st.get now newId id = .ok (some s') → s'.Written := by
  have hget := fun now => @get_save_self st s hp hs now newId
  refine ⟨hp.checkFit, hget, fun now s' hs' => ?_, fun calls hnow log es hes =>
    Turn.comes_talkStored_iff hget rfl hs hnow hes, fun now id s' hnow hs' =>
      written_of_get hs' hnow⟩
  obtain rfl : s = s' := Option.some.inj (Except.ok.inj ((hget now).symm.trans hs'))
  refine ⟨hp.checkFit, ?_⟩
  rw [save_of_plain hp, save_of_plain hp, put_put rfl rfl]

/-- A session that began in Kolkata, where it was half past five hours ahead, and went on in
Caracas; one of its visits is dated without an offset. -/
def traveller : Session :=
  { id := "s-1", flowId := "greeting", contact := { id := "ana" }, currentNodeId := "name",
    status := .waitingInput
    vars :=
      [("trip", .object [("stops", .list [.int 2, .float Binary64.zero, .null]), ("", .bool true)])]
    history := [⟨"start", "start", "executed", ⟨⟨2024, 2, 29⟩, 1500000, none⟩⟩]
    startedAt := ⟨⟨2024, 2, 29⟩, 86399999999, some (330 * Moment.minute)⟩
    lastActivityAt := ⟨⟨2024, 3, 1⟩, 0, some (-270 * Moment.minute)⟩ }

theorem written_traveller : traveller.Written where
  started := ⟨by decide +kernel, by decide +kernel, by rintro o ⟨⟩; decide +kernel⟩
  active := ⟨by decide +kernel, by decide +kernel, by rintro o ⟨⟩; decide +kernel⟩
  history v hv := by
    cases List.mem_singleton.mp hv
    exact ⟨by decide +kernel, by decide +kernel, nofun⟩

theorem written_newYear : Turn.newYear.Written where
  date := by decide +kernel
  clock := by decide +kernel
  offset := by rintro o ⟨⟩; decide +kernel

/-- The traveller is asked for the name and answers, with nobody to ask. -/
def travellerAnswers : List Turn.Ending :=
  ((Turn.talk traveller [⟨Turn.greetingSetting, Turn.newYear, some "Ana", none⟩]).play
    (Turn.undisturbed Turn.silent 0) ()).1

theorem snapshots_round_trip_traveller :
    (save {} traveller).get Turn.newYear "" "s-1" = .ok (some traveller) ∧
      (save {} traveller).save traveller = save {} traveller ∧
      (Turn.talkStored "" "s-1" (save {} traveller)
        [⟨Turn.greetingSetting, Turn.newYear, some "Ana", none⟩]).Ends travellerAnswers := by
  have hplain : traveller.Plain := ⟨by decide +kernel, by decide +kernel⟩
  obtain ⟨-, hget, hsave, htalk, -⟩ := snapshots_round_trip {} hplain written_traveller ""
  obtain ⟨-, hagain⟩ := hsave Turn.newYear traveller (hget Turn.newYear)
  have hanswers : ∀ e ∈ travellerAnswers, e.session.Plain := by
    have hall : travellerAnswers.all fun e =>
        Value.fieldsFinite e.session.vars && e.session.fits := by decide +kernel
    intro e he
    obtain ⟨hfinite, hfits⟩ := Bool.and_eq_true_iff.mp (List.all_eq_true.mp hall e he)
    exact ⟨hfinite, hfits⟩
  refine ⟨hget Turn.newYear, hagain, ?_⟩
  refine ((htalk _ (fun c hc => ?_) _ travellerAnswers hanswers).mpr
    (Program.comes_play _ _ _)).ends
  cases List.mem_singleton.mp hc
  exact written_newYear

/-! ### What is not stored as it is -/

/-- The traveller with lists in lists. -/
def spelunker (n : Nat) : Session := { traveller with vars := [("cave", .nested n)] }

/-- Lists in lists are written up to the limit. -/
theorem fits_spelunker (n : Nat) : (spelunker n).fits = true ↔ n < Value.depthLimit := by
  have hdepth : Value.depthFields (spelunker n).vars = (Value.nested n).depth := Nat.max_zero _
  rw [← Value.fits_nested_iff, Session.fits, Value.fieldsFit, hdepth, Value.fits]

/-- The traveller, who began in Bombay by the sun, 4 hours, 51 minutes and 16 seconds ahead. -/
def stargazer : Session := { traveller with startedAt := ⟨⟨1850, 2, 28⟩, 0, some (17476 * second)⟩ }

/-- **What is not stored as it is.**  With one list too many a session is not saved at all; with
seconds in an offset it is told with another one. -/
theorem snapshots_leave_out :
    (Value.fieldsFinite (spelunker 255).vars = true ∧ (spelunker 255).Written ∧
      (spelunker 255).checkFit = .error .tooDeep ∧ save {} (spelunker 255) = {} ∧
      (save {} (spelunker 255)).get Turn.newYear "" "s-1" = .ok none) ∧
    stargazer.Plain ∧ ∃ s', (save {} stargazer).get Turn.newYear "" "s-1" = .ok (some s') ∧
      s'.startedAt ≠ stargazer.startedAt := by
  have hdeep : (spelunker 255).fits = false :=
    Bool.eq_false_iff.mpr fun hfits => Nat.lt_irrefl _ ((fits_spelunker 255).mp hfits)
  have hsave : save {} (spelunker 255) = {} := save_of_not_fits {} hdeep
  refine ⟨⟨?_, ⟨written_traveller.started, written_traveller.active, written_traveller.history⟩,
    ?_, hsave, ?_⟩, ⟨rfl, rfl⟩, ?_⟩
  · change ((Value.nested 255).isFinite && true) = true
    rw [Value.isFinite_nested, Bool.and_self]
  · rw [Session.checkFit, hdeep]
    rfl
  · rw [hsave]
    rfl
  · have hput : save {} stargazer = put {} stargazer := save_of_plain ⟨rfl, rfl⟩
    rw [hput]
    have hoffset : (((put {} stargazer).get Turn.newYear "" "s-1").toOption.bind id).map
        (·.startedAt.offset) = some (some (17460000000 : Int)) := by decide +kernel
    cases hget : (put {} stargazer).get Turn.newYear "" "s-1" with
    | error e =>
        rw [hget] at hoffset
        cases hoffset
    | ok found =>
        rw [hget] at hoffset
        obtain ⟨s', rfl, htold⟩ := Option.map_eq_some_iff.mp hoffset
        refine ⟨s', rfl, fun he => ?_⟩
        rw [he] at htold
        exact absurd htold (by decide)

end Store
end Parley
