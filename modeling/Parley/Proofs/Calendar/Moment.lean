import Parley.Proofs.Number.Digits
import Parley.Store.Basic

/-!
# Moments, written and read

A moment on a real date, with a clock below a day and with no offset or one of whole minutes
(`Moment.Written`), is stored as a text from which it is read back where a document is made into a
session (`moment_text`), and where the store compares documents (`readIso?_text`).  Moments with an
offset compare as points of time (`compare?_of_offset`), those of universal time (`Moment.Utc`) as
their readings.
-/

namespace Parley.Calendar

open Number

namespace Moment

/-- A moment of universal time: the date is real and the clock shows less than a day. -/
structure Utc (m : Moment) : Prop where
  offset : m.offset = some 0
  date : m.date.isReal = true
  clock : m.clock < day

/-- Microseconds in a minute. -/
def minute : Nat := 60 * second

/-- A moment that documents can hold: the date is real, the clock shows less than a day, and the
offset, if there is one, is of whole minutes and less than a day. -/
structure Written (m : Moment) : Prop where
  date : m.date.isReal = true
  clock : m.clock < day
  offset : ∀ o ∈ m.offset, o.natAbs < day ∧ o.natAbs % minute = 0

/-- Documents can hold a moment of universal time. -/
theorem Utc.written {m : Moment} (h : m.Utc) : m.Written where
  date := h.date
  clock := h.clock
  offset o ho := by
    rw [h.offset] at ho
    cases ho
    decide

/-- The characters of a fraction of a second. -/
def fraction (m : Moment) : List Char :=
  if m.clock % second = 0 then [] else '.' :: padded 6 (m.clock % second)

/-- The characters of the clock. -/
def clockChars (m : Moment) : List Char :=
  padded 2 (m.clock / second / 3600) ++ ':' :: (padded 2 (m.clock / second / 60 % 60) ++
    ':' :: (padded 2 (m.clock / second % 60) ++ m.fraction))

/-- A moment is written as its date, a `T` and its clock. -/
theorem toList_localText (m : Moment) :
    m.localText.toList = padded 4 m.date.year ++ '-' :: (padded 2 m.date.month ++
      '-' :: (padded 2 m.date.day ++ 'T' :: m.clockChars)) := by
  unfold localText clockChars fraction
  dsimp only
  split <;> simp [toList_padZeros, String.toList_append]

theorem le_of_mem_monthLengths {year n : Nat} (h : n ∈ monthLengths year) : n ≤ 31 := by
  unfold monthLengths at h
  simp only [List.mem_cons, List.not_mem_nil, or_false] at h
  split at h <;> omega

theorem daysInMonth_le (year month : Nat) : daysInMonth year month ≤ 31 := by
  unfold daysInMonth
  rw [List.getD_eq_getElem?_getD]
  cases hm : (monthLengths year)[month - 1]? with
  | none => simp
  | some n => exact le_of_mem_monthLengths (List.mem_of_getElem? hm)

namespace Written

variable {m : Moment} (h : m.Written)

include h

/-- The parts of a date fit into their digits. -/
theorem date_bounds : m.date.year < 10 ^ 4 ∧ 1 ≤ m.date.month ∧ m.date.month ≤ 12 ∧
    m.date.day < 10 ^ 2 := by
  have hd := h.date
  have hle := daysInMonth_le m.date.year m.date.month
  simp only [Date.isReal, Bool.and_eq_true, decide_eq_true_eq] at hd
  have hlast : m.date.year ≤ 9999 := hd.1.1.1.1.2
  omega

theorem hour_lt : m.clock / second / 3600 < 24 := by
  have := h.clock
  unfold day second at *
  omega

end Written

/-- The parts of a clock make it up. -/
theorem clock_eq (clock : Nat) : ((clock / second / 3600 * 60 + clock / second / 60 % 60) * 60 +
    clock / second % 60) * second + clock % second = clock := by
  unfold second
  omega

/-- The point of time of a moment, in microseconds since the start of year 1 where its offset is
known. -/
def instant (m : Moment) : Int := m.reading - m.offset.getD 0

/-- Moments with offsets are compared by their instants. -/
theorem compare?_of_offset {a b : Moment} (ha : a.offset.isSome) (hb : b.offset.isSome) :
    a.compare? b = some (compare a.instant b.instant) := by
  obtain ⟨x, hx⟩ := Option.isSome_iff_exists.mp ha
  obtain ⟨y, hy⟩ := Option.isSome_iff_exists.mp hb
  unfold compare? instant
  rw [hx, hy]
  rfl

/-- The clock of universal time tells the instant. -/
theorem Utc.instant {m : Moment} (h : m.Utc) : m.instant = m.reading := by
  rw [Moment.instant, h.offset]
  exact Int.sub_zero _

/-! ### Offsets -/

/-- The characters of an offset of whole minutes. -/
def offsetChars (o : Int) : List Char :=
  (if o < 0 then '-' else '+') :: (padded 2 (o.natAbs / second / 3600) ++
    ':' :: padded 2 (o.natAbs / second / 60 % 60))

/-- What follows the clock in a text. -/
def zoneChars (m : Moment) : List Char :=
  m.offset.elim [] fun o => if o = 0 then ['Z'] else offsetChars o

/-- An offset of whole minutes is stored without loss. -/
theorem toList_zoneText {o : Int} (h : o.natAbs % minute = 0) :
    (zoneText o).toList = if o = 0 then ['Z'] else offsetChars o := by
  obtain ⟨hseconds, hsign, hzero⟩ : (o / second).natAbs = o.natAbs / second ∧
      (o / second < 0 ↔ o < 0) ∧ (o / second = 0 ↔ o = 0) := by
    unfold minute second at *
    omega
  unfold zoneText offsetChars
  simp only [hseconds, hsign, hzero]
  split
  · rfl
  · split <;> simp [toList_padZeros, String.toList_append]

/-- The characters of a stored moment. -/
theorem toList_text_eq {m : Moment} (h : m.Written) :
    m.text.toList = m.localText.toList ++ m.zoneChars := by
  unfold text zoneChars
  rcases ho : m.offset with _ | o
  · simp
  · rw [String.toList_append, toList_zoneText (h.offset o ho).2, Option.elim_some]

/-! ### Read by the store -/

/-- A date is read from its digits. -/
theorem readDate?_padded {d : Date} (hy : d.year < 10 ^ 4) (hm : d.month < 10 ^ 2)
    (hd : d.day < 10 ^ 2) (hr : d.isReal = true) (rest : List Char) :
    readDate? 10 (padded 4 d.year ++ '-' :: (padded 2 d.month ++ '-' :: (padded 2 d.day ++ rest))) =
      some d := by
  unfold readDate?
  rw [readDigits?_padded _ (by omega) hy]
  simp only [Option.bind_eq_bind, Option.bind_some, List.head?_cons, BEq.rfl, if_true,
    List.drop_succ_cons, List.drop_zero]
  split
  · next h => exact absurd h (padded_ne_cons (by decide) _ _)
  · rw [readDigits?_padded _ (by omega) hm]
    simp only [Option.bind_some, dropSeparator?, Bool.not_true, Bool.false_eq_true, if_false]
    rw [readDigits?_padded _ (by omega) hd]
    simp [hr]

theorem dateLength_padded {d : Date} (hy : d.year < 10 ^ 4) (hm : d.month < 10 ^ 2)
    (hd : d.day < 10 ^ 2) (rest : List Char) :
    let cs := padded 4 d.year ++ '-' :: (padded 2 d.month ++ '-' :: (padded 2 d.day ++ 'T' :: rest))
    dateLength cs = 10 ∧ cs.drop 10 = 'T' :: rest := by
  have hW := padded_ne_cons (w := 2) (n := d.month) (c := 'W') (by decide) []
  obtain ⟨a, b, c, e, h4⟩ := padded_four hy
  obtain ⟨f, g, h2⟩ := padded_two hm
  obtain ⟨i, j, h2'⟩ := padded_two hd
  rw [h4, h2, h2']
  rw [h2] at hW
  have hf : f ≠ 'W' := fun hf => hW [g] (by rw [hf]; rfl)
  simp [dateLength, hf]

/-- The clock of a moment with something behind it. -/
theorem readTime?_clockChars {m : Moment} (h : m.Written) (after : List Char)
    (hafter : ∀ c ∈ after.head?, isDigit c = false) :
    readTime? m.clockChars after = some
      { hour := m.clock / second / 3600, minute := m.clock / second / 60 % 60
        seconds := m.clock / second % 60, micros := m.clock % second, more := !after.isEmpty } := by
  have hhour := h.hour_lt
  have hdrop : after.dropWhile isDigit = after := by
    cases after with
    | nil => rfl
    | cons c rest => rw [List.dropWhile_cons_of_neg (by simp [hafter c rfl])]
  have hne := isEmpty_padded_append
  unfold readTime? clockChars
  rw [readParts?, readDigits?_padded _ (by omega) (by omega)]
  simp only [Option.bind_eq_bind, Option.bind_some, hne]
  rw [readParts?, readDigits?_padded _ (by omega) (by omega)]
  simp only [Option.bind_eq_bind, Option.bind_some, hne]
  rw [readParts?, readDigits?_padded _ (by omega) (by omega)]
  simp only [Option.bind_eq_bind, Option.bind_some]
  unfold fraction
  by_cases hz : m.clock % second = 0
  · simp [hz, Time.with]
  · have hmicros : m.clock % second < 10 ^ 6 := by
      unfold second
      omega
    have hread := readDigits?_padded (w := 6) [] (by omega) hmicros
    have hempty := hne 6 (m.clock % second) []
    rw [List.append_nil] at hread hempty
    have hlen := length_padded (w := 6) (by omega) hmicros
    simp [hz, Time.with, hempty, readFraction?, hlen, hread, hdrop, tenTo_zero]

/-- A clock is written with digits, colons and a point. -/
theorem of_mem_clockChars {m : Moment} {c : Char} (h : c ∈ m.clockChars) :
    c.isDigit = true ∨ c = ':' ∨ c = '.' := by
  have hfraction : c ∈ m.fraction → c.isDigit = true ∨ c = '.' := by
    unfold fraction
    split
    · exact nofun
    · intro hc
      rcases List.mem_cons.mp hc with rfl | hc
      · exact .inr rfl
      · exact .inl (isDigit_of_mem_padded hc)
  unfold clockChars at h
  simp only [List.mem_append, List.mem_cons] at h
  rcases h with h | rfl | h | rfl | h | h
  · exact .inl (isDigit_of_mem_padded h)
  · exact .inr (.inl rfl)
  · exact .inl (isDigit_of_mem_padded h)
  · exact .inr (.inl rfl)
  · exact .inl (isDigit_of_mem_padded h)
  · exact (hfraction h).imp_right .inr

/-- An offset is read when its time is, without a fraction. -/
theorem readOffset?_of_time {t : Time} {cs : List Char} (ht : readTime? cs [] = some t)
    (hmore : t.more = false) (hmicros : t.micros = 0) (hday : t.total < day) (negative : Bool) :
    readOffset? negative cs = some (if negative then -(t.total : Int) else t.total) := by
  have hwhole : (if (t.total : Int) = 0 then 0 else (t.total : Int)) = t.total := by
    split
    · next hz => exact hz.symm
    · rfl
  unfold readOffset?
  rw [ht]
  simp only [Option.bind_eq_bind, Option.bind_some]
  rw [hmore, hmicros, Nat.sub_zero, hwhole, if_neg (by simpa using hday)]
  rfl

/-- Hours and minutes of an offset are read. -/
theorem readOffset?_padded {hours minutes : Nat} (hh : hours < 24) (hm : minutes < 60)
    (negative : Bool) :
    let total : Int := ((hours * 60 + minutes) * 60 * second : Nat)
    readOffset? negative (padded 2 hours ++ ':' :: padded 2 minutes) =
      some (if negative then -total else total) := by
  have hread := readDigits?_padded (w := 2) (n := minutes) [] (by omega) (by omega)
  rw [List.append_nil] at hread
  have hempty := isEmpty_padded_append 2 minutes []
  rw [List.append_nil] at hempty
  have htime : readTime? (padded 2 hours ++ ':' :: padded 2 minutes) [] =
      some { hour := hours, minute := minutes } := by
    unfold readTime?
    rw [readParts?, readDigits?_padded _ (by omega) (by omega)]
    simp only [Option.bind_eq_bind, Option.bind_some, hempty]
    rw [readParts?, hread]
    rfl
  have htotal : Time.total { hour := hours, minute := minutes } =
      (hours * 60 + minutes) * 60 * second := by
    simp only [Time.total, Nat.add_zero]
  have hday : (hours * 60 + minutes) * 60 * second < day := by
    unfold day second
    omega
  have hoffset := readOffset?_of_time htime rfl rfl (htotal ▸ hday) negative
  rw [htotal] at hoffset
  exact hoffset

/-- An offset of whole minutes is read from its hours and minutes. -/
theorem readOffset?_offset {o : Int} (hday : o.natAbs < day) (hminute : o.natAbs % minute = 0) :
    readOffset? (decide (o < 0)) (padded 2 (o.natAbs / second / 3600) ++
      ':' :: padded 2 (o.natAbs / second / 60 % 60)) = some o := by
  have hsum : (o.natAbs / second / 3600 * 60 + o.natAbs / second / 60 % 60) * 60 * second =
      o.natAbs := by
    unfold minute second at *
    omega
  have hread := @readOffset?_padded (o.natAbs / second / 3600) (o.natAbs / second / 60 % 60)
    (by unfold day second at *; omega) (by omega) (decide (o < 0))
  rw [hsum] at hread
  rw [hread]
  by_cases hneg : o < 0 <;>
    simp only [hneg, decide_true, decide_false, if_true, Bool.false_eq_true, if_false] <;>
    exact congrArg some (by omega)

/-- What the store reads behind the clock. -/
def signedZone (m : Moment) : List Char := m.offset.elim [] offsetChars

/-- A clock is read with its zone. -/
theorem readClock?_clockChars {m : Moment} (h : m.Written) :
    readClock? (m.clockChars ++ m.signedZone) = some (m.clock, m.offset) := by
  have hhour := h.hour_lt
  have hsum := clock_eq m.clock
  have hclock : ∀ c ∈ m.clockChars,
      (!(decide (c = '+') || decide (c = '-') || decide (c = 'Z'))) = true := by
    intro c hc
    rcases of_mem_clockChars hc with hd | rfl | rfl
    · have hne (d : Char) (hd' : d.isDigit = false) : c ≠ d := fun he => by
        rw [he, hd'] at hd
        cases hd
      simp [hne '+' (by decide), hne '-' (by decide), hne 'Z' (by decide)]
    · decide
    · decide
  -- the clock ends at the sign of the offset
  have hmarks : (m.clockChars ++ m.signedZone).takeWhile
      (fun c => !(decide (c = '+') || decide (c = '-') || decide (c = 'Z'))) = m.clockChars := by
    rw [List.takeWhile_append_of_pos hclock]
    unfold signedZone
    cases m.offset with
    | none => exact List.append_nil _
    | some o =>
        rw [Option.elim_some, offsetChars, List.takeWhile_cons_of_neg (by split <;> decide)]
        exact List.append_nil _
  have htime := readTime?_clockChars h m.signedZone fun c hc => by
    unfold signedZone at hc
    cases ho : m.offset with
    | none =>
        rw [ho] at hc
        cases hc
    | some o =>
        rw [ho] at hc
        cases hc
        split <;> rfl
  unfold readClock?
  dsimp only
  rw [hmarks, List.drop_left, htime]
  simp only [Option.bind_eq_bind, Option.bind_some]
  rw [if_neg (by simp; omega)]
  unfold signedZone
  cases ho : m.offset with
  | none => simpa [Time.total] using hsum
  | some o =>
      obtain ⟨hday, hminute⟩ := h.offset o ho
      have hread := readOffset?_offset hday hminute
      have hsign : decide ((if o < 0 then '-' else '+') = '-') = decide (o < 0) := by
        by_cases hneg : o < 0 <;> simp [hneg]
      rw [Option.elim_some, offsetChars]
      split
      · next he => cases he
      · next he => split at he <;> cases he
      · next he => split at he <;> cases he
      · next c rest _ _ he =>
        obtain ⟨rfl, rfl⟩ := List.cons.inj he
        rw [hsign, hread]
        simpa [Time.total] using hsum

theorem flatMap_zulu {cs : List Char} (h : ∀ c ∈ cs, c ≠ 'Z') :
    (cs.flatMap fun c => if c = 'Z' then "+00:00".toList else [c]) = cs := by
  induction cs with
  | nil => rfl
  | cons c rest ih =>
      simp only [List.flatMap_cons, if_neg (h c List.mem_cons_self)]
      rw [ih fun d hd => h d (List.mem_cons_of_mem _ hd)]
      rfl

/-- The characters of a text, as the store reads them. -/
theorem toList_zuluAsOffset {m : Moment} (h : m.Written) :
    (Store.zuluAsOffset m.text).toList = m.localText.toList ++ m.signedZone := by
  have hpadded {width n : Nat} {c : Char} (hc : c ∈ padded width n) : c ≠ 'Z' := by
    rintro rfl
    cases isDigit_of_mem_padded hc
  have hlocal : ∀ c ∈ m.localText.toList, c ≠ 'Z' := by
    intro c hc
    rw [toList_localText] at hc
    simp only [List.mem_append, List.mem_cons] at hc
    rcases hc with hc | rfl | hc | rfl | hc | rfl | hc
    · exact hpadded hc
    · decide
    · exact hpadded hc
    · decide
    · exact hpadded hc
    · decide
    · rcases of_mem_clockChars hc with hc | rfl | rfl
      · rintro rfl
        cases hc
      · decide
      · decide
  have hoffset (o : Int) : ∀ c ∈ offsetChars o, c ≠ 'Z' := by
    intro c hc
    simp only [offsetChars, List.mem_append, List.mem_cons] at hc
    rcases hc with rfl | hc | rfl | hc
    · split <;> decide
    · exact hpadded hc
    · decide
    · exact hpadded hc
  -- neither what stands before the zone nor an offset has a Z in it
  unfold Store.zuluAsOffset
  rw [String.toList_ofList, toList_text_eq h, List.flatMap_append, flatMap_zulu hlocal]
  unfold zoneChars signedZone
  cases m.offset with
  | none => rfl
  | some o =>
      rw [Option.elim_some, Option.elim_some]
      split
      · next hz => exact congrArg _ (by rw [hz]; decide)
      · rw [flatMap_zulu (hoffset o)]

/-- **The store reads back the moment of a text.** -/
theorem readIso?_text {m : Moment} (h : m.Written) :
    readIso? (Store.zuluAsOffset m.text) = some m := by
  obtain ⟨hy, -, hm, hd⟩ := h.date_bounds
  have hm' : m.date.month < 10 ^ 2 := by omega
  have hchars : (Store.zuluAsOffset m.text).toList = padded 4 m.date.year ++
      '-' :: (padded 2 m.date.month ++ '-' :: (padded 2 m.date.day ++
        'T' :: (m.clockChars ++ m.signedZone))) := by
    rw [toList_zuluAsOffset h, toList_localText]
    simp only [List.append_assoc, List.cons_append]
  obtain ⟨hlen, hdrop⟩ := dateLength_padded hy hm' hd (m.clockChars ++ m.signedZone)
  have hclock := readClock?_clockChars h
  unfold readIso?
  rw [hchars]
  dsimp only
  rw [hlen, readDate?_padded hy hm' hd h.date, hdrop]
  simp only [Option.bind_eq_bind, Option.bind_some]
  rw [hclock]
  rfl

/-! ### Read as part of a document -/

/-- A date is read so where it is checked, too. -/
theorem readDay_padded {d : Date} (hy : d.year < 10 ^ 4) (hm : 1 ≤ d.month ∧ d.month ≤ 12)
    (hd : d.day < 10 ^ 2) (hr : d.isReal = true) (rest : List Char) :
    Schema.readDay (padded 4 d.year ++ '-' ::
      (padded 2 d.month ++ '-' :: (padded 2 d.day ++ rest))) = .ok (d, rest) := by
  have hm' : d.month < 10 ^ 2 := by omega
  have hlen : ¬ (padded 4 d.year ++ '-' :: (padded 2 d.month ++ '-' ::
      (padded 2 d.day ++ rest))).length < 10 := by
    simp [length_padded (w := 4) (by omega) hy, length_padded (w := 2) (by omega) hm',
      length_padded (w := 2) (by omega) hd]
    omega
  unfold Schema.readDay Schema.digitsOr
  rw [if_neg hlen, Schema.frontDigits?_padded _ (by omega) hy]
  simp only [Schema.hyphen, bind, Except.bind, pure, Except.pure]
  rw [Schema.frontDigits?_padded _ (by omega) hm']
  simp only
  rw [Schema.frontDigits?_padded _ (by omega) hd]
  simp only [hr, Bool.or_eq_true, decide_eq_true_eq, Bool.not_true, Bool.false_eq_true, if_false]
  rw [if_neg (by omega)]

/-- What follows the clock begins with neither a digit nor a mark of a fraction. -/
theorem head_zoneChars {m : Moment} {c : Char} (h : c ∈ m.zoneChars.head?) :
    isDigit c = false ∧ c ≠ '.' ∧ c ≠ ',' := by
  unfold zoneChars at h
  rcases ho : m.offset with _ | o <;> rw [ho] at h
  · cases h
  · simp only [Option.elim_some] at h
    split at h <;> cases h
    · decide
    · split <;> decide

/-- Hours and minutes behind a sign are read. -/
theorem readZone?_signed {hours minutes : Nat} (hh : hours < 24) (hm : minutes < 60)
    (negative : Bool) :
    let total : Int := ((hours * 60 + minutes) * 60 * second : Nat)
    Schema.readZone? ((if negative then '-' else '+') ::
      (padded 2 hours ++ ':' :: padded 2 minutes)) =
      some (some (if negative then -total else total)) := by
  have hread := Schema.frontDigits?_padded (w := 2) (n := minutes) [] (by omega) (by omega)
  rw [List.append_nil] at hread
  have hday : (hours * 60 + minutes) * 60 * second < day := by
    unfold day second
    omega
  have hday' : ((hours : Int) * 60 + minutes) * 60 * second < day := by exact_mod_cast hday
  have hh' : hours < 10 ^ 2 := by omega
  cases negative <;>
    simp [Schema.readZone?, Schema.frontDigits?_padded (w := 2) _ (by omega) hh', hread, hm, hday']

/-- An offset of whole minutes is read so where it is checked, too. -/
theorem readZone?_offsetChars {o : Int} (hday : o.natAbs < day) (hminute : o.natAbs % minute = 0) :
    Schema.readZone? (offsetChars o) = some (some o) := by
  have hsum : (o.natAbs / second / 3600 * 60 + o.natAbs / second / 60 % 60) * 60 * second =
      o.natAbs := by
    unfold minute second at *
    omega
  have hread := @readZone?_signed (o.natAbs / second / 3600) (o.natAbs / second / 60 % 60)
    (by unfold day second at *; omega) (by omega) (decide (o < 0))
  rw [hsum] at hread
  unfold offsetChars
  by_cases hneg : o < 0
  · simp only [hneg, decide_true, if_true] at hread ⊢
    rw [hread]
    exact congrArg (some ∘ some) (by omega)
  · simp only [hneg, decide_false, Bool.false_eq_true, if_false] at hread ⊢
    rw [hread]
    exact congrArg (some ∘ some) (by omega)

/-- An offset is read back. -/
theorem readZone?_zoneChars {m : Moment} (h : m.Written) :
    Schema.readZone? m.zoneChars = some m.offset := by
  unfold zoneChars
  rcases ho : m.offset with _ | o
  · rfl
  · by_cases hz : o = 0
    · simp [hz, Schema.readZone?]
    · rw [Option.elim_some, if_neg hz]
      exact readZone?_offsetChars (h.offset o ho).1 (h.offset o ho).2

/-- Seconds are read with their fraction. -/
theorem readSeconds?_fraction (m : Moment) :
    Schema.readSeconds? (padded 2 (m.clock / second % 60) ++ (m.fraction ++ m.zoneChars)) =
      some (m.clock / second % 60 * second + m.clock % second, m.zoneChars) := by
  have hhead := @head_zoneChars m
  unfold Schema.readSeconds?
  rw [Schema.frontDigits?_padded _ (by omega) (by omega)]
  simp only [Option.bind_eq_bind, Option.bind_some]
  rw [if_neg (by omega)]
  unfold fraction
  generalize m.zoneChars = zone at hhead
  by_cases hz : m.clock % second = 0
  · cases zone with
    | nil => simp [hz]
    | cons c rest => simp [hz, (hhead rfl).2.1, (hhead rfl).2.2]
  · have hmicros : m.clock % second < 10 ^ 6 := by
      unfold second
      omega
    have hlen := length_padded (w := 6) (by omega) hmicros
    have htake : (padded 6 (m.clock % second) ++ zone).takeWhile isDigit =
        padded 6 (m.clock % second) := by
      cases zone with
      | nil =>
          rw [List.takeWhile_append_of_pos (List.all_eq_true.mp (all_isDigit_padded 6 _)),
            List.takeWhile_nil]
          exact List.append_nil _
      | cons c rest => exact takeWhile_isDigit_padded 6 _ (hhead rfl).1 rest
    have hempty := isEmpty_padded_append 6 (m.clock % second) []
    rw [List.append_nil] at hempty
    simp [hz, htake, hempty, hlen, ofDigitChars_padded, tenTo_zero, List.take_of_length_le,
      List.drop_left' hlen]

/-- **A document reads back the moment of a text.** -/
theorem moment_text {m : Moment} (h : m.Written) : Schema.moment (.text m.text) = .ok m := by
  obtain ⟨hy, hm1, hm, hd⟩ := h.date_bounds
  have hread : Schema.readMoment? m.text.toList = some m := by
    rw [toList_text_eq h, toList_localText]
    simp only [List.append_assoc, List.cons_append]
    unfold Schema.readMoment?
    rw [readDay_padded hy ⟨hm1, hm⟩ hd h.date]
    simp only [decide_true, Bool.true_or, if_true]
    have hhour := h.hour_lt
    unfold Schema.readTime? clockChars
    simp only [List.append_assoc, List.cons_append]
    rw [Schema.frontDigits?_padded _ (by omega) (by omega)]
    simp only [Option.bind_eq_bind, Option.bind_some]
    rw [Schema.frontDigits?_padded _ (by omega) (by omega)]
    simp only [Option.bind_some, Bool.or_eq_true, decide_eq_true_eq]
    rw [if_neg (by omega), readSeconds?_fraction]
    have hsum : (m.clock / second / 3600 * 60 + m.clock / second / 60 % 60) * 60 * second +
        (m.clock / second % 60 * second + m.clock % second) = m.clock := by
      unfold second
      omega
    simp only [Option.bind_some, readZone?_zoneChars h, hsum]
    rfl
  unfold Schema.moment
  dsimp only
  rw [hread]

end Moment

end Parley.Calendar
