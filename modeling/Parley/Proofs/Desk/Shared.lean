import Mathlib.Logic.Function.Basic
import Mathlib.Logic.Relation
import Parley.Proofs.Turn.Clearing
import Parley.Proofs.Value.Entries
import Parley.Rehearsal.Cast

/-!
# Turns at one desk

Any number of turns are under way and ask one desk, in any order: a `Room` is the desk, the turns as
far as they have come and what the desk has done, the latest first.  A request to the desk is
carried out at one moment.  It may fail before that, and its answer may be lost after that, to a
failure or to an interruption; all other requests are replied anything.

Where every lead capture that saves in a table looks out for duplicates by a field, a lead is saved
in the table only when its turn has found its value new (`Sound`).  But what was new then need not
be new any more: a lead is `Overtaken` when another turn saves one with the same value between the
two requests.  That is the one way to two leads with the same value (`duplicates_iff_overtaken`).
-/

namespace Parley

/-- The request is one to the desk. -/
def Consultation.isAtDesk : Consultation → Bool
  | .findContracts .. | .clientType _ | .checkDuplicate .. | .saveLead .. | .sendLead ..
  | .createTicket .. => true
  | _ => false

namespace Desk

/-- The desk carries out a request: the answer, and the desk as it is then. -/
def carryOut (d : Desk) (c : Consultation) : Except Fault c.Answer × Desk :=
  let (answer, cast) := ({ desk := some d } : Rehearsal.Cast).respond c
  (answer, cast.office)

/-- The value of a row in a field. -/
def rowAt (field : String) : Value → Value
  | .object fields => valueAt field fields
  | _ => .null

/-- A lead has the value that it is kept with, but for the two fields that the desk writes. -/
theorem rowAt_row {field : String} (hs : field ≠ "source") (ht : field ≠ "tags") (lead : Fields)
    (source : String) (tags : List String) :
    rowAt field (.object (row lead source tags)) = valueAt field lead := by
  have hnot : field ∉ Entries.names [("source", Value.text source), ("tags", .texts tags)] := by
    simp [Entries.names, hs, ht]
  exact congrArg (Option.getD · .null) (Entries.get?_update_of_notMem hnot)

/-- A value that a table does not have is in none of its rows. -/
theorem rowAt_of_anyHas {value : Value} {field : String} {rows : List Value}
    (h : anyHas value field rows = .ok false) :
    ∀ r ∈ rows, (rowAt field r).same value = false := by
  induction rows with
  | nil => exact List.forall_mem_nil _
  | cons r rest ih =>
      unfold anyHas at h
      cases r with
      | object fields =>
          simp only [Value.entriesFor, bind, Except.bind] at h
          split at h
          · cases h
          · next hr => exact List.forall_mem_cons.mpr ⟨Bool.eq_false_iff.mpr hr, ih h⟩
      | _ => cases h

end Desk
end Parley

namespace Parley.Turn

variable {ι : Type} {field table : String}

/-! ### What the desk has done -/

/-- A request that the desk has carried out for a turn, and its answer. -/
structure Deed (ι : Type) where
  who : ι
  request : Consultation
  answer : Except Parley.Fault request.Answer

namespace Deed

/-- A lead was saved in the table. -/
inductive Saves (table : String) (lead : Fields) : Deed ι → Prop where
  | mk (who : ι) (source : String) (tags : List String)
      (answer : Except Parley.Fault (Consultation.saveLead table lead source tags).Answer) :
      Saves table lead ⟨who, .saveLead table lead source tags, answer⟩

/-- No lead of the table had the value in the field. -/
inductive Clears (field table : String) (value : Value) : Deed ι → Prop where
  | mk (who : ι) : Clears field table value ⟨who, .checkDuplicate value field table, .ok false⟩

/-- The rows that it added to the table. -/
def rows (table : String) (deed : Deed ι) : List Value :=
  match deed.request with
  | .saveLead t lead source tags => if t = table then [.object (Desk.row lead source tags)] else []
  | _ => []

/-- Who saves a lead keeps a row of it. -/
theorem Saves.exists_row {lead : Fields} {deed : Deed ι} (h : deed.Saves table lead) :
    ∃ source tags, deed.rows table = [.object (Desk.row lead source tags)] := by
  obtain ⟨who, source, tags, answer⟩ := h
  exact ⟨source, tags, if_pos rfl⟩

/-- It added no row, or that of a lead. -/
theorem rows_cases (deed : Deed ι) : deed.rows table = [] ∨ ∃ lead source tags,
    deed.Saves table lead ∧ deed.rows table = [.object (Desk.row lead source tags)] := by
  obtain ⟨who, request, answer⟩ := deed
  cases request with
  | saveLead t lead source tags =>
      by_cases ht : t = table
      · subst ht
        exact .inr ⟨lead, source, tags, .mk who source tags answer, if_pos rfl⟩
      · exact .inl (if_neg ht)
  | _ => exact .inl rfl

theorem saves_of_mem_rows {deed : Deed ι} {r : Value} (h : r ∈ deed.rows table) :
    ∃ lead source tags, deed.Saves table lead ∧ r = .object (Desk.row lead source tags) := by
  rcases deed.rows_cases with hnone | ⟨lead, source, tags, hsaves, hrow⟩
  · rw [hnone] at h
    cases h
  · rw [hrow] at h
    exact ⟨lead, source, tags, hsaves, List.mem_singleton.mp h⟩

end Deed

/-- The rows of the table after what the desk has done, the latest of it first. -/
def kept (table : String) : List (Deed ι) → List Value
  | [] => []
  | deed :: past => kept table past ++ deed.rows table

/-- Rows are kept in the order of the deeds. -/
theorem kept_append (later past : List (Deed ι)) :
    kept table (later ++ past) = kept table past ++ kept table later := by
  induction later with
  | nil => rw [List.nil_append, kept, List.append_nil]
  | cons deed later ih => rw [List.cons_append, kept, kept, ih, List.append_assoc]

/-- A row that is kept was kept by a deed. -/
theorem mem_kept {past : List (Deed ι)} {r : Value} :
    r ∈ kept table past ↔ ∃ deed ∈ past, r ∈ deed.rows table := by
  induction past with
  | nil => simp [kept]
  | cons deed past ih => simp [kept, ih, or_comm]

/-- The desk's table after a request. -/
theorem table_carryOut (d : Desk) (who : ι) (c : Consultation) :
    (d.carryOut c).2.table table = d.table table ++ Deed.rows table ⟨who, c, (d.carryOut c).1⟩ := by
  cases c with
  | saveLead t lead source tags =>
      change (d.saveLead t lead source tags).table table = _ ++ if t = table then _ else _
      by_cases ht : t = table
      · subst ht
        rw [if_pos rfl, Desk.table_saveLead]
      · rw [if_neg ht, List.append_nil]
        unfold Desk.saveLead Desk.table
        rw [Entries.get?_put, if_neg ht]
  | _ => exact (List.append_nil _).symm

/-! ### What is found new, and what is saved -/

variable {past : List (Deed ι)} {who : ι}

/-- The turn has found the value new, and has saved no lead since. -/
def ClearedFor (field table : String) (who : ι) (value : Value) (past : List (Deed ι)) : Prop :=
  ∃ since x before, past = since ++ x :: before ∧ x.Clears field table value ∧ x.who = who ∧
    ∀ y ∈ since, y.who = who → ∀ t lead, ¬ y.Saves t lead

/-- What the desk has done could be done: a value that was found new was in no row, and a lead is
saved when its value was found new for its turn. -/
inductive Lawful (field table : String) : List (Deed ι) → Prop where
  | nil : Lawful field table []
  | cons {deed : Deed ι} {past : List (Deed ι)} (h : Lawful field table past)
      (hc : ∀ v, deed.Clears field table v → ∀ r ∈ kept table past,
        (Desk.rowAt field r).same v = false)
      (hs : ∀ lead, deed.Saves table lead → (Desk.valueAt field lead).isTruthy = true →
        ClearedFor field table deed.who (Desk.valueAt field lead) past) :
      Lawful field table (deed :: past)

/-- Who was cleared stays so until it saves. -/
theorem ClearedFor.cons {value : Value} (h : ClearedFor field table who value past) {deed : Deed ι}
    (hd : deed.who = who → ∀ t lead, ¬ deed.Saves t lead) :
    ClearedFor field table who value (deed :: past) := by
  obtain ⟨since, x, before, rfl, hx, hw, hs⟩ := h
  exact ⟨deed :: since, x, before, rfl, hx, hw, List.forall_mem_cons.mpr ⟨hd, hs⟩⟩

/-- What a turn remembers as new after a request that the desk carried out. -/
theorem clearedFor_served {m : Option Value}
    (hm : ∀ v, m = some v → ClearedFor field table who v past) (c : Consultation)
    {answer : Except Parley.Fault c.Answer}
    {reply : Except Interruption (Except Parley.Fault c.Answer)}
    (hr : reply = .ok answer ∨ told reply = none) {v : Value}
    (h : c.cleared field table m (told reply) = some v) :
    ClearedFor field table who v (⟨who, c, answer⟩ :: past) := by
  cases c with
  | checkDuplicate value f t =>
      have hkeep (hv : m = some v) : ClearedFor field table who v
          (⟨who, .checkDuplicate value f t, answer⟩ :: past) :=
        (hm v hv).cons fun _ _ _ hs => nomatch hs
      rcases hr with rfl | hr
      · rcases answer with fault | known | known
        · exact hkeep h
        · simp only [told, Consultation.cleared] at h
          split at h
          · next heq =>
            obtain ⟨rfl, rfl⟩ := heq
            cases h
            exact ⟨[], _, past, rfl, .mk who, rfl, List.forall_mem_nil _⟩
          · exact hkeep h
        · exact hkeep h
      · rw [hr] at h
        exact hkeep h
  | saveLead => cases h
  | _ => exact (hm v h).cons fun _ _ _ hs => nomatch hs

/-- A reply that the desk has no part in: what it is asked is not answered. -/
def Op.Unserved : (op : Op) → op.Reply → Prop
  | .act (.consult c _) _, reply => c.isAtDesk = true → told reply = none
  | _, _ => True

/-- What a turn remembers as new after a request that the desk has no part in. -/
theorem notes_unserved {m : Option Value} {op : Op} {reply : op.Reply} (h : op.Unserved reply)
    {v : Value} (hv : (clearing field table).notes m op reply = some v) : m = some v := by
  cases op with
  | act op deadline =>
      cases op with
      | sleep => exact hv
      | consult c bound =>
          cases c with
          | checkDuplicate value f t =>
              have hnone : told reply = none := h rfl
              change Consultation.cleared field table m (.checkDuplicate value f t) (told reply) =
                some v at hv
              rw [hnone] at hv
              exact hv
          | saveLead => cases hv
          | _ => exact hv
  | _ => exact hv

/-! ### Turns that share the desk -/

/-- The desk, the turns as far as they have come, and what the desk has done, the latest first. -/
structure Room (ι : Type) where
  desk : Desk
  turns : ι → TurnProgram Ending
  past : List (Deed ι)

/-- The turn, as far as it has come, keeps to the rule with what was found new for it. -/
def IsCareful (field table : String) (past : List (Deed ι)) (who : ι) (p : TurnProgram Ending) :
    Prop :=
  ∃ m, p.Heeds (clearing field table) m (fun _ _ => True) ∧
    ∀ v, m = some v → ClearedFor field table who v past

/-- The table holds what was saved in it, all that was done could be done, and every turn is
careful. -/
structure Sound (field table : String) (s : Room ι) : Prop where
  rows : s.desk.table table = kept table s.past
  lawful : Lawful field table s.past
  careful : ∀ who, IsCareful field table s.past who (s.turns who)

/-- The room with the turns about to begin. -/
def Room.opening (d : Desk) (turns : ι → TurnProgram Ending) : Room ι := ⟨d, turns, []⟩

/-- A room where nobody has acted is sound. -/
theorem sound_opening {d : Desk} {turns : ι → TurnProgram Ending} (hd : d.table table = [])
    (ht : ∀ who, (turns who).Heeds (clearing field table) none fun _ _ => True) :
    Sound field table (Room.opening d turns) :=
  ⟨hd, .nil, fun who => ⟨none, ht who, nofun⟩⟩

/-- A value that the desk has found new is in no row of its table. -/
theorem rowAt_of_clears {d : Desk} {who : ι} {c : Consultation} {v : Value}
    (h : Deed.Clears field table v ⟨who, c, (d.carryOut c).1⟩) :
    ∀ r ∈ d.table table, (Desk.rowAt field r).same v = false := by
  generalize ha : (d.carryOut c).1 = answer at h
  cases h
  exact Desk.rowAt_of_anyHas ha

section

variable [DecidableEq ι] {s s' : Room ι}

/-- A turn goes on with the reply to its request. -/
def Room.go (s : Room ι) (who : ι) (p : TurnProgram Ending) : Room ι :=
  { s with turns := Function.update s.turns who p }

/-- The desk carries out a request of a turn, which goes on. -/
def Room.serve (s : Room ι) (who : ι) (c : Consultation) (p : TurnProgram Ending) : Room ι where
  desk := (s.desk.carryOut c).2
  turns := Function.update s.turns who p
  past := ⟨who, c, (s.desk.carryOut c).1⟩ :: s.past

/-- One request of one turn. -/
inductive Room.Step (s : Room ι) : Room ι → Prop where
  /-- The desk carries the request out, and the answer reaches the turn or is lost. -/
  | served {who : ι} {c : Consultation} {bound : Option Binary64} {deadline : Option Rat}
      {next : (Op.act (.consult c bound) deadline).Reply → TurnProgram Ending}
      (h : s.turns who = .request (.act (.consult c bound) deadline) next)
      (reply : Except Interruption (Except Parley.Fault c.Answer))
      (hr : reply = .ok (s.desk.carryOut c).1 ∨ told reply = none) :
      Step s (s.serve who c (next reply))
  /-- Somebody else replies, or the request fails before the desk has it. -/
  | unserved {who : ι} {op : Op} {next : op.Reply → TurnProgram Ending}
      (h : s.turns who = .request op next) (reply : op.Reply) (hr : op.Unserved reply) :
      Step s (s.go who (next reply))

/-- One turn goes on carefully, and what was found new for the others is still so. -/
theorem careful_update {past past' : List (Deed ι)} {turns : ι → TurnProgram Ending} {who : ι}
    {p : TurnProgram Ending} (h : ∀ who, IsCareful field table past who (turns who))
    (hp : IsCareful field table past' who p)
    (hothers : ∀ other v, other ≠ who → ClearedFor field table other v past →
      ClearedFor field table other v past') (other : ι) :
    IsCareful field table past' other (Function.update turns who p other) := by
  by_cases ho : other = who
  · subst ho
    rwa [Function.update_self]
  · rw [Function.update_of_ne ho]
    obtain ⟨m, hheeds, hm⟩ := h other
    exact ⟨m, hheeds, fun v hv => hothers other v ho (hm v hv)⟩

/-- **One request** leaves the room sound. -/
theorem Sound.step (h : Sound field table s) (t : s.Step s') : Sound field table s' := by
  cases t with
  | @served who c bound deadline next hturn reply hr =>
      obtain ⟨m, hheeds, hm⟩ := h.careful who
      rw [hturn] at hheeds
      refine ⟨?_, ?_, ?_⟩
      · change (s.desk.carryOut c).2.table table = kept table s.past ++ _
        rw [table_carryOut s.desk who c, h.rows]
      · refine h.lawful.cons (fun v hv => h.rows ▸ rowAt_of_clears hv) ?_
        intro lead hlead ht
        cases hlead
        exact hm _ (hheeds.1 rfl ht)
      · refine careful_update h.careful ⟨_, hheeds.2 reply, fun v => clearedFor_served hm c hr⟩ ?_
        intro other v ho hv
        exact hv.cons fun hw => absurd hw.symm ho
  | unserved hturn reply hr =>
      obtain ⟨m, hheeds, hm⟩ := h.careful _
      rw [hturn] at hheeds
      refine ⟨h.rows, h.lawful, ?_⟩
      exact careful_update h.careful ⟨_, hheeds.2 reply, fun v hv => hm v (notes_unserved hr hv)⟩
        fun _ _ _ hv => hv

/-- **All that happens in the room** leaves it sound. -/
theorem Sound.reaches (h : Sound field table s) (t : Relation.ReflTransGen Room.Step s s') :
    Sound field table s' := by
  induction t with
  | refl => exact h
  | tail _ t ih => exact ih.step t

end

/-! ### Two leads with the same value -/

/-- Of two rows the later one does not have the value of the earlier one, or has no value. -/
def Apart (field : String) (r r' : Value) : Prop :=
  (Desk.rowAt field r').isTruthy = true → (Desk.rowAt field r).same (Desk.rowAt field r') = false

/-- A lead was saved in the table whose value another turn had saved there after it was found new.
-/
def Overtaken (field table : String) (past : List (Deed ι)) : Prop :=
  ∃ later z since x before lead, past = later ++ z :: (since ++ x :: before) ∧
    z.Saves table lead ∧ (Desk.valueAt field lead).isTruthy = true ∧
    x.Clears field table (Desk.valueAt field lead) ∧ x.who = z.who ∧
    ∃ y ∈ since, ∃ lead', y.Saves table lead' ∧ y.who ≠ z.who ∧
      (Desk.valueAt field lead').same (Desk.valueAt field lead) = true

theorem Lawful.of_append {later past : List (Deed ι)} (h : Lawful field table (later ++ past)) :
    Lawful field table past := by
  induction later with
  | nil => exact h
  | cons deed later ih =>
      cases h with
      | cons h => exact ih h

theorem Overtaken.cons {deed : Deed ι} (h : Overtaken field table past) :
    Overtaken field table (deed :: past) := by
  obtain ⟨later, z, since, x, before, lead, rfl, h⟩ := h
  exact ⟨deed :: later, z, since, x, before, lead, rfl, h⟩

/-- A lead that was overtaken has the value of a row before it. -/
theorem Overtaken.not_pairwise (hs : field ≠ "source") (ht : field ≠ "tags")
    (h : Overtaken field table past) : ¬ (kept table past).Pairwise (Apart field) := by
  obtain ⟨later, z, since, x, before, lead, rfl, hz, htruthy, -, -, y, hy, lead', hy', -, hsame⟩ :=
    h
  intro hp
  obtain ⟨source, tags, hrow⟩ := hz.exists_row
  obtain ⟨source', tags', hrow'⟩ := hy'.exists_row
  rw [kept_append, kept] at hp
  have hmem : Value.object (Desk.row lead' source' tags') ∈ kept table (since ++ x :: before) :=
    mem_kept.mpr ⟨y, List.mem_append_left _ hy, hrow' ▸ List.mem_singleton_self _⟩
  have hapart := (List.pairwise_append.mp (List.pairwise_append.mp hp).1).2.2 _ hmem
    (.object (Desk.row lead source tags)) (hrow ▸ List.mem_singleton_self _)
  unfold Apart at hapart
  rw [Desk.rowAt_row hs ht, Desk.rowAt_row hs ht] at hapart
  exact absurd hsame (Bool.eq_false_iff.mp (hapart htruthy))

/-- A lead with the value of an earlier row was overtaken: the row was not there yet when the value
was found new. -/
theorem Lawful.overtaken (hs : field ≠ "source") (ht : field ≠ "tags") {z : Deed ι} {lead : Fields}
    {r : Value} (h : Lawful field table past) (hz : z.Saves table lead)
    (htruthy : (Desk.valueAt field lead).isTruthy = true)
    (hc : ClearedFor field table z.who (Desk.valueAt field lead) past) (hr : r ∈ kept table past)
    (hsame : (Desk.rowAt field r).same (Desk.valueAt field lead) = true) :
    Overtaken field table (z :: past) := by
  obtain ⟨since, x, before, rfl, hx, hw, hsince⟩ := hc
  have hnew : r ∉ kept table (x :: before) := by
    intro hold
    have hrows : x.rows table = [] := by cases hx; rfl
    rw [kept, hrows, List.append_nil] at hold
    cases h.of_append with
    | cons _ hclear => exact absurd hsame (Bool.eq_false_iff.mp (hclear _ hx r hold))
  rw [kept_append] at hr
  obtain ⟨y, hy, hmem⟩ := mem_kept.mp ((List.mem_append.mp hr).resolve_left hnew)
  obtain ⟨lead', source, tags, hsaves, rfl⟩ := Deed.saves_of_mem_rows hmem
  rw [Desk.rowAt_row hs ht] at hsame
  exact ⟨[], z, since, x, before, lead, rfl, hz, htruthy, hx, hw, y, hy, lead', hsaves,
    fun hyz => hsince y hy hyz table lead' hsaves, hsame⟩

/-- Of lawful deeds that were not overtaken no two keep rows with one value. -/
theorem Lawful.pairwise (hs : field ≠ "source") (ht : field ≠ "tags") (h : Lawful field table past)
    (hnone : ¬ Overtaken field table past) : (kept table past).Pairwise (Apart field) := by
  induction h with
  | nil => exact .nil
  | @cons deed past h _ hsaves ih =>
      have hpast := ih fun ho => hnone ho.cons
      rw [kept]
      rcases deed.rows_cases with hrows | ⟨lead, source, tags, hlead, hrows⟩
      · rwa [hrows, List.append_nil]
      · rw [hrows]
        refine List.pairwise_append.mpr ⟨hpast, List.pairwise_singleton _ _, fun r hr => ?_⟩
        rw [List.forall_mem_singleton, Apart, Desk.rowAt_row hs ht]
        intro htruthy
        by_contra hsame
        exact hnone (h.overtaken hs ht hlead htruthy (hsaves lead hlead htruthy) hr
          ((Bool.not_eq_false _).mp hsame))

/-- **Two leads with one value of a field** come into a table just when one of them was overtaken.
Any number of turns, of any sessions under any flows in which every lead capture that saves in the
table looks out for duplicates by the field, ask one desk, whose table is empty at first, in any
order, whatever else they are replied and whenever they fail or are interrupted.  Of two rows of the
table the later one never has the value of the earlier one, unless the request that saved it comes
after another turn has saved that value, which came after its own turn was told that the table did
not have it. -/
theorem duplicates_iff_overtaken [DecidableEq ι] {field table : String} (hs : field ≠ "source")
    (ht : field ≠ "tags") {d : Desk} (hd : d.table table = []) {setting : ι → Step.Setting}
    (hg : ∀ who, ∀ n ∈ (setting who).flow.nodes, n.Guards field table) {now : ι → Calendar.Moment}
    {session : ι → Session} {message : ι → Option String} {timeout : ι → Option Binary64}
    {s : Room ι}
    (h : Relation.ReflTransGen Room.Step (Room.opening d fun who =>
      run (setting who) (now who) (session who) (message who) (timeout who)) s) :
    (s.desk.table table).Pairwise (Apart field) ↔ ¬ Overtaken field table s.past := by
  have hsound : Sound field table s := Sound.reaches (sound_opening hd fun who =>
    run_heeds_clearing (hg who) (now who) (session who) (message who) (timeout who)) h
  rw [hsound.rows]
  exact ⟨fun hp ho => ho.not_pairwise hs ht hp, hsound.lawful.pairwise hs ht⟩

/-! ### Two contacts with one name -/

/-- The turn goes on: the desk does what it asks for, and nothing else keeps it. -/
def Room.advance [DecidableEq ι] (s : Room ι) (who : ι) : Room ι :=
  match s.turns who with
  | .done _ => s
  | .request .time next => s.go who (next (0 : Rat))
  | .request .enter next => s.go who (next Entry.go)
  | .request (.act (.consult c _) _) next => s.serve who c (next (.ok (s.desk.carryOut c).1))
  | .request (.act (.sleep _) _) next => s.go who (next (.ok ()))
  | .request .leave next => s.go who (next false)

/-- Any order of turns is a run of the room. -/
theorem reaches_advance [DecidableEq ι] (s : Room ι) (order : List ι) :
    Relation.ReflTransGen Room.Step s (order.foldl Room.advance s) := by
  induction order generalizing s with
  | nil => exact .refl
  | cons who order ih =>
      refine Relation.ReflTransGen.trans ?_ (ih (s.advance who))
      unfold Room.advance
      split
      · exact .refl
      · next h => exact .single (.unserved h _ trivial)
      · next h => exact .single (.unserved h _ trivial)
      · next h => exact .single (.served h _ (.inl rfl))
      · next h => exact .single (.unserved h _ trivial)
      · next h => exact .single (.unserved h _ trivial)

/-- A nickname is asked for, and saved if nobody has it. -/
def rosterNode : Flow.Node :=
  { id := "lead"
    block := .leadCapture
      { captureFields := [("nickname", { enabled := true, question := "Your nickname?" })]
        captureOrder := ["nickname"], saveToDatabase := true, validateDuplicates := true
        duplicateField := "nickname" } }

/-- A roster of nicknames. -/
def roster : Flow :=
  { id := "greeting"
    nodes := [{ id := "start", block := .start {} }, rosterNode,
      { id := "bye", block := .ending {} }]
    edges := [{ source := "start", target := "lead" }, { source := "lead", target := "bye" }] }

/-- The roster with a back office. -/
def rosterSetting : Step.Setting := ⟨roster, {}, { backend := true }⟩

/-- A contact who has been asked for a nickname. -/
def rosterAsked : Session :=
  ((tour rosterSetting newYear newcomer none none).play (undisturbed silent 0) ()).1.2.session

/-- Two contacts are about to give the same nickname. -/
def rosterOpening : Room Bool :=
  Room.opening { contracts := [] } fun _ => run rosterSetting newYear rosterAsked (some "Ana") none

/-- Both are told that the nickname is new before either of them has it saved. -/
def rosterCrossed : Room Bool :=
  [true, true, true, false, false, false, true, false].foldl Room.advance rosterOpening

theorem guards_roster : ∀ n ∈ rosterSetting.flow.nodes, n.Guards "nickname" "leads" := by
  intro n hn d hd hsave htable
  rcases List.mem_cons.mp hn with rfl | hn
  · cases hd
  rcases List.mem_cons.mp hn with rfl | hn
  · cases hd
    exact ⟨rfl, rfl⟩
  · cases List.mem_singleton.mp hn
    cases hd

/-- The nickname is saved twice, and the second time it was overtaken. -/
theorem duplicates_iff_overtaken_roster :
    Relation.ReflTransGen Room.Step rosterOpening rosterCrossed ∧
      (rosterCrossed.desk.table "leads").map
        (fun r => (Desk.rowAt "nickname" r).same (.text "Ana")) = [true, true] ∧
      ((rosterCrossed.desk.table "leads").Pairwise (Apart "nickname") ↔
        ¬ Overtaken "nickname" "leads" rosterCrossed.past) := by
  have h : Relation.ReflTransGen Room.Step rosterOpening rosterCrossed := reaches_advance _ _
  exact ⟨h, by decide +kernel, duplicates_iff_overtaken (by decide) (by decide) rfl
    (fun _ => guards_roster) h⟩

end Parley.Turn
