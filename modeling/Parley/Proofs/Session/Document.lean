import Parley.Proofs.Calendar.Moment
import Parley.Proofs.Schema.Parts

/-!
# Sessions read back from their documents

A session whose moments are all such as documents can hold (`Session.Written`) is read back from its
document (`Session.ofValue_toValue`), whatever stands in for what documents leave open.  Those of
universal time are such (`Session.Timely`), and it is known at what point of time they were last
active (`Session.Dated`).

Whatever a document gives as a moment is one that documents can hold (`Schema.written_of_moment`): a
date that is read is real, and so is one that is counted (`Date.isReal_ofOrdinal`), a clock stays
below a day, and an offset is of whole minutes.  So all sessions that are read from documents are
such as documents can hold (`Session.written_of_ofValue`).
-/

namespace Parley

open Schema Calendar

/-- A contact is read from its own document. -/
theorem Contact.ofValue_toValue (c : Contact) : Contact.ofValue c.toValue = .ok c := rfl

namespace Session

/-- All the moments of the session are of universal time. -/
structure Timely (s : Session) : Prop where
  started : s.startedAt.Utc
  active : s.lastActivityAt.Utc
  history : ∀ v ∈ s.history, v.moment.Utc

/-- All the moments of the session are such as documents can hold. -/
structure Written (s : Session) : Prop where
  started : s.startedAt.Written
  active : s.lastActivityAt.Written
  history : ∀ v ∈ s.history, v.moment.Written

/-- Documents can hold the moments of a timely session. -/
theorem Timely.written {s : Session} (h : s.Timely) : s.Written :=
  ⟨h.started.written, h.active.written, fun v hv => (h.history v hv).written⟩

/-- Documents can hold the session, and it is known at what point of time it was last active. -/
structure Dated (s : Session) : Prop where
  written : s.Written
  aware : s.lastActivityAt.offset.isSome

theorem Timely.dated {s : Session} (h : s.Timely) : s.Dated :=
  ⟨h.written, by rw [h.active.offset]; rfl⟩

/-- The variables are stored as they are: every number is finite, and nothing nests too deep. -/
structure Plain (s : Session) : Prop where
  finite : Value.fieldsFinite s.vars = true
  fits : s.fits = true

/-- A plain session is its own dump. -/
theorem Plain.dumped {s : Session} (h : s.Plain) : s.dumped = s := by
  rw [Session.dumped, Value.dumpedFields_of_fieldsFinite h.finite]

theorem Plain.checkFit {s : Session} (h : s.Plain) : s.checkFit = .ok () := if_pos h.fits

/-- A visit is read from its own document. -/
theorem Visit.read_toValue {v : Visit} (h : v.moment.Written) (now : Moment) :
    block "HistoryEntry" (Visit.read now) v.toValue = .ok v := by
  unfold Visit.toValue block Visit.read
  dsimp only
  rw [required_ok rfl (text_text v.nodeId), required_ok rfl (text_text v.nodeKind),
    optional_ok rfl (text_text v.action),
    optional_ok rfl (Moment.moment_text h)]
  rfl

theorem readStatus_name (st : Status) : readStatus (.text st.name) = .ok st := by
  cases st <;> rfl

/-- **A session is read back from its document.** -/
theorem ofValue_toValue {s : Session} (h : s.Written) (now : Moment) (newId : String) :
    ofValue now newId s.toValue = .ok s := by
  unfold toValue ofValue block read
  dsimp only
  rw [optional_ok rfl (text_text s.id), required_ok rfl (text_text s.flowId),
    optional_ok rfl (int_int s.flowVersion),
    required_ok rfl s.contact.ofValue_toValue,
    optional_ok rfl (text_text s.currentNodeId),
    optional_ok rfl (readStatus_name s.status),
    optional_ok rfl (object_any s.vars),
    optional_ok rfl
      (list_map fun v hv => Visit.read_toValue (h.history v hv) now),
    optional_ok rfl (int_int s.turnCount),
    optional_ok rfl (Moment.moment_text h.started),
    optional_ok rfl (Moment.moment_text h.active)]
  rfl

end Session
end Parley

/-! ### The moments of documents -/

namespace Parley.Calendar

namespace Date

/-- A day of the year falls into one of its months. -/
theorem inYear_spec (year : Nat) {lengths : List Nat} {month rest : Nat}
    (h : rest < lengths.foldr (· + ·) 0) :
    ∃ k d, inYear year month lengths rest = ⟨year, month + k, d + 1⟩ ∧ d < lengths.getD k 0 := by
  induction lengths generalizing month rest with
  | nil => simp at h
  | cons length more ih =>
      rw [inYear]
      split
      · next hlt => exact ⟨0, rest, rfl, hlt⟩
      · next hle =>
        rw [List.foldr_cons] at h
        obtain ⟨k, d, he, hd⟩ := @ih (month + 1) (rest - length) (by omega)
        exact ⟨k + 1, d, by rw [he]; congr 1; omega, by simpa using hd⟩

theorem sum_monthLengths (year : Nat) :
    (monthLengths year).foldr (· + ·) 0 = if isLeap year then 366 else 365 := by
  unfold monthLengths
  split <;> rfl

/-- A day of a year in the calendar is a date. -/
theorem isReal_inYear {year rest : Nat} (hy : 1 ≤ year ∧ year ≤ lastYear)
    (h : rest < if isLeap year then 366 else 365) :
    (inYear year 1 (monthLengths year) rest).isReal = true := by
  rw [← sum_monthLengths] at h
  obtain ⟨k, d, he, hd⟩ := @inYear_spec year _ 1 rest h
  have hk : k < 12 := by
    by_contra hge
    have hnone : (monthLengths year).getD k 0 = 0 := by
      rw [List.getD_eq_getElem?_getD, List.getElem?_eq_none (by simpa [monthLengths] using hge)]
      rfl
    omega
  have hdays : daysInMonth year (1 + k) = (monthLengths year).getD k 0 := by
    rw [daysInMonth, Nat.add_sub_cancel_left]
  rw [he]
  simp only [isReal, hdays, Bool.and_eq_true, decide_eq_true_eq]
  omega

/-- **Every number of a day is one of a date.** -/
theorem isReal_ofOrdinal {n : Nat} (h : n - 1 < daysBeforeYear (lastYear + 1)) :
    (ofOrdinal n).isReal = true := by
  have hn : n - 1 < 3652059 := h
  unfold ofOrdinal
  dsimp only
  generalize n - 1 = days at hn
  refine isReal_inYear ⟨by omega, ?_⟩ ?_
  · unfold lastYear
    omega
  · have hleap (year : Nat) (hl : isLeap year = false) : year % 4 ≠ 0 ∨ year % 100 = 0 ∧
        year % 400 ≠ 0 := by
      simp [isLeap] at hl
      omega
    split
    · omega
    · next hl =>
      have := hleap _ (Bool.eq_false_iff.mpr hl)
      omega

end Date

end Parley.Calendar

namespace Parley.Schema

open Calendar

/-! ### Moments of documents -/

/-- A day that is read is in the calendar. -/
theorem readDay_isReal {cs rest : List Char} {d : Date} (h : readDay cs = .ok (d, rest)) :
    d.isReal = true := by
  unfold readDay at h
  simp only [bind, Except.bind, pure, Except.pure, throw, throwThe, MonadExceptOf.throw] at h
  repeat' split at h
  all_goals cases h
  simp_all

/-- Microseconds of a fraction of up to six digits. -/
theorem micros_lt {ds : List Char} (h : ds.length ≤ 6) :
    Number.ofDigitChars ds * Number.tenTo (6 - ds.length) < second := by
  have hlt := Number.ofDigitChars_lt ds
  have hsplit : second = 10 ^ ds.length * 10 ^ (6 - ds.length) := by
    rw [← Nat.pow_add, Nat.add_sub_cancel' h]
    rfl
  rw [hsplit]
  exact Nat.mul_lt_mul_of_pos_right hlt (Number.tenTo_pos _)

/-- The seconds of a clock are less than a minute. -/
theorem readSeconds?_lt {cs rest : List Char} {n : Nat} (h : readSeconds? cs = some (n, rest)) :
    n < Moment.minute := by
  unfold readSeconds? at h
  obtain ⟨⟨seconds, rest'⟩, -, h⟩ := Option.bind_eq_some_iff.mp h
  dsimp only at h
  split at h
  · cases h
  · next hsec =>
    have hsum {micros : Nat} (hm : micros < second) :
        seconds * second + micros < Moment.minute := by
      unfold Moment.minute second at *
      omega
    split at h
    · next c more =>
      split at h
      · split at h
        · cases h
        · obtain ⟨rfl, -⟩ := Prod.mk.inj (Option.some.inj h)
          exact hsum (micros_lt (List.length_take_le ..))
      · obtain ⟨rfl, -⟩ := Prod.mk.inj (Option.some.inj h)
        simpa using @hsum 0 (by unfold second; omega)
    · obtain ⟨rfl, -⟩ := Prod.mk.inj (Option.some.inj h)
      simpa using @hsum 0 (by unfold second; omega)

/-- An offset is of whole minutes and less than a day. -/
theorem readZone?_bounds {cs : List Char} {o : Int} (h : readZone? cs = some (some o)) :
    o.natAbs < day ∧ o.natAbs % Moment.minute = 0 := by
  unfold readZone? at h
  split at h
  · cases h
  · cases h
    decide
  · cases h
    decide
  · dsimp only at h
    split at h
    on_goal 2 => split at h
    -- the sign has no say in the bounds
    all_goals
      obtain ⟨negative, -, h⟩ := Option.bind_eq_some_iff.mp h
      obtain ⟨⟨hours, rest⟩, -, h⟩ := Option.bind_eq_some_iff.mp h
      obtain ⟨⟨minutes, after⟩, -, h⟩ := Option.bind_eq_some_iff.mp h
      dsimp only at h
      split at h
      · cases h
      · next hno =>
        simp only [Bool.or_eq_true, decide_eq_true_eq, not_or] at hno
        have hlt := hno.2
        have htotal : o.natAbs = (hours * 60 + minutes) * 60 * second := by
          rw [← Option.some.inj (Option.some.inj h)]
          split
          · rw [Int.natAbs_neg, Int.natAbs_natCast]
          · exact Int.natAbs_natCast _
        rw [htotal]
        unfold Moment.minute second at *
        omega

/-- A clock that is read is within the day, and its offset is of whole minutes. -/
theorem readTime?_bounds {cs : List Char} {clock : Nat} {offset : Option Int}
    (h : readTime? cs = some (clock, offset)) :
    clock < day ∧ ∀ o ∈ offset, o.natAbs < day ∧ o.natAbs % Moment.minute = 0 := by
  unfold readTime? at h
  obtain ⟨⟨hour, rest⟩, -, h⟩ := Option.bind_eq_some_iff.mp h
  dsimp only at h
  split at h
  · obtain ⟨⟨minute, rest'⟩, -, h⟩ := Option.bind_eq_some_iff.mp h
    dsimp only at h
    split at h
    · cases h
    · next hclock =>
      simp only [Bool.or_eq_true, decide_eq_true_eq, not_or] at hclock
      have hsum {seconds : Nat} (hlt : seconds < Moment.minute) :
          (hour * 60 + minute) * 60 * second + seconds < day := by
        unfold Moment.minute day second at *
        omega
      split at h
      · obtain ⟨⟨seconds, rest''⟩, hsec, h⟩ := Option.bind_eq_some_iff.mp h
        obtain ⟨zone, hzone, h⟩ := Option.bind_eq_some_iff.mp h
        obtain ⟨rfl, rfl⟩ := Prod.mk.inj (Option.some.inj h)
        exact ⟨hsum (readSeconds?_lt hsec), fun o ho => readZone?_bounds (ho ▸ hzone)⟩
      · obtain ⟨⟨seconds, rest''⟩, hsec, h⟩ := Option.bind_eq_some_iff.mp h
        obtain ⟨rfl, -⟩ := Prod.mk.inj (Option.some.inj hsec)
        obtain ⟨zone, hzone, h⟩ := Option.bind_eq_some_iff.mp h
        obtain ⟨rfl, rfl⟩ := Prod.mk.inj (Option.some.inj h)
        exact ⟨hsum (by decide : 0 < Moment.minute), fun o ho => readZone?_bounds (ho ▸ hzone)⟩
  · cases h

/-- Documents can hold a moment that was read from a text. -/
theorem written_of_readMoment? {cs : List Char} {m : Moment} (h : readMoment? cs = some m) :
    m.Written := by
  unfold readMoment? at h
  split at h
  · next date c rest hday =>
    split at h
    · obtain ⟨⟨clock, offset⟩, htime, h⟩ := Option.bind_eq_some_iff.mp h
      obtain rfl := Option.some.inj h
      obtain ⟨hclock, hoffset⟩ := readTime?_bounds htime
      exact ⟨readDay_isReal hday, hclock, hoffset⟩
    · cases h
  · cases h

theorem written_ofReading {n : Nat} (h : n < daysBeforeYear (lastYear + 1) * day) :
    (Moment.ofReading n).Written where
  date := Date.isReal_ofOrdinal (by
    rw [Nat.add_sub_cancel]
    exact (Nat.div_lt_iff_lt_mul (by decide)).mpr h)
  clock := Nat.mod_lt _ (by decide)
  offset o ho := by
    cases ho
    decide

/-- Documents can hold a moment that was read from a count of microseconds. -/
theorem written_of_momentOfMicros {n : Int} {m : Moment} (h : momentOfMicros n = .ok m) :
    m.Written := by
  unfold momentOfMicros at h
  dsimp only at h
  split at h
  · next hb =>
    cases h
    simp only [Bool.and_eq_true, decide_eq_true_eq] at hb
    refine written_ofReading ?_
    have hlast : daysBeforeYear (lastYear + 1) = daysBeforeYear 10000 := rfl
    rw [hlast]
    generalize daysBeforeYear 10000 * day = bound at hb ⊢
    omega
  · cases h

/-- Documents can hold a moment that was read from a count of seconds or milliseconds. -/
theorem written_of_momentOfCount {n : Int} {m : Moment} (h : momentOfCount n = .ok m) :
    m.Written := by
  unfold momentOfCount at h
  split at h <;> exact written_of_momentOfMicros h

/-- **A document gives only moments that documents can hold.** -/
theorem written_of_moment {v : Value} {m : Moment} (h : moment v = .ok m) : m.Written := by
  unfold moment at h
  split at h
  · dsimp only at h
    split at h
    · next m' hread =>
      obtain rfl := Checked.ok.inj h
      exact written_of_readMoment? hread
    · split at h
      · exact written_of_momentOfCount h
      · split at h
        · next hday =>
          obtain rfl := Checked.ok.inj h
          exact ⟨readDay_isReal hday, (by decide : 0 < day), nofun⟩
        · cases h
        · cases h
  · exact written_of_momentOfCount h
  · split at h
    · exact written_of_momentOfCount h
    · cases h
  · cases h

end Parley.Schema

namespace Parley.Session

open Schema Calendar

/-- A moment that need not be given is the one that stands in for it, or one of a document. -/
theorem written_of_optional {fields : Fields} {k : Key} {now m : Moment}
    (h : optional fields k moment now = .ok m) (hnow : now.Written) : m.Written := by
  rcases of_optional h with rfl | ⟨v, hv⟩
  · exact hnow
  · exact written_of_moment hv

/-- So it is with the moment of a visit that was read. -/
theorem Visit.written_of_block {now : Moment} {v : Value} {visit : Visit}
    (h : block "HistoryEntry" (Visit.read now) v = .ok visit) (hnow : now.Written) :
    visit.moment.Written := by
  unfold block at h
  split at h
  · obtain ⟨_, moment, h₁, hmoment, rfl⟩ := Checked.of_seq h
    obtain ⟨_, action, h₂, -, rfl⟩ := Checked.of_seq h₁
    obtain ⟨_, kind, h₃, -, rfl⟩ := Checked.of_seq h₂
    obtain ⟨_, nodeId, h₄, -, rfl⟩ := Checked.of_seq h₃
    cases h₄
    exact written_of_optional hmoment hnow
  · cases h

/-- **A document gives only sessions that documents can hold**, when what stands in for its moments
is such a moment. -/
theorem written_of_ofValue {now : Moment} {newId : String} {v : Value} {s : Session}
    (h : ofValue now newId v = .ok s) (hnow : now.Written) : s.Written := by
  unfold ofValue block at h
  split at h
  · obtain ⟨_, active, h₁, hactive, rfl⟩ := Checked.of_seq h
    obtain ⟨_, started, h₂, hstarted, rfl⟩ := Checked.of_seq h₁
    obtain ⟨_, turnCount, h₃, -, rfl⟩ := Checked.of_seq h₂
    obtain ⟨_, history, h₄, hhistory, rfl⟩ := Checked.of_seq h₃
    obtain ⟨_, vars, h₅, -, rfl⟩ := Checked.of_seq h₄
    obtain ⟨_, status, h₆, -, rfl⟩ := Checked.of_seq h₅
    obtain ⟨_, currentNodeId, h₇, -, rfl⟩ := Checked.of_seq h₆
    obtain ⟨_, contact, h₈, -, rfl⟩ := Checked.of_seq h₇
    obtain ⟨_, flowVersion, h₉, -, rfl⟩ := Checked.of_seq h₈
    obtain ⟨_, flowId, h₁₀, -, rfl⟩ := Checked.of_seq h₉
    obtain ⟨_, id, h₁₁, -, rfl⟩ := Checked.of_seq h₁₀
    cases h₁₁
    refine ⟨written_of_optional hstarted hnow, written_of_optional hactive hnow,
      fun visit hvisit => ?_⟩
    rcases of_optional hhistory with rfl | ⟨v, hv⟩
    · cases hvisit
    · obtain ⟨v', hv'⟩ := of_list hv visit hvisit
      exact Visit.written_of_block hv' hnow
  · cases h

end Parley.Session
