import Parley.Proofs.Turn.Capture
import Parley.Proofs.Turn.Restart

/-!
# What the nodes of a session have written

Apart from the steps of its nodes a session is written twice only: a turn notes its message, and a
hand-off its ticket (`outside`).  On all other names the variables of a session are those that it
had first, with the changes of the nodes that succeeded, one after the other, over all its turns.

A `History` is a list of stops each of which found just that, and ran.  All stops of a career, and
those of one more turn after them, are a history (`Career.history`, `Career.history_then`).
-/

namespace Parley.Turn

/-! ### Variables alike -/

/-- The variables that are written by others than nodes. -/
def outside : List String := ["last_user_message", "handoff_ticket_id"]

/-- The variables are alike on all names that only nodes write. -/
def AlikeInside (vars vars' : Fields) : Prop := ∀ name ∉ outside, vars.get? name = vars'.get? name

variable {vars vars' vars'' : Fields}

theorem AlikeInside.refl (vars : Fields) : AlikeInside vars vars := fun _ _ => rfl

/-- Variables that are alike inside are so in steps. -/
theorem AlikeInside.trans (h : AlikeInside vars vars') (h' : AlikeInside vars' vars'') :
    AlikeInside vars vars'' :=
  fun name hname => (h name hname).trans (h' name hname)

theorem alikeInside_put {name : String} (hname : name ∈ outside) (vars : Fields) (v : Value) :
    AlikeInside (vars.put name v) vars := fun other hother => by
  have hne : name ≠ other := by
    rintro rfl
    exact hother hname
  rw [Entries.get?_put, if_neg hne]

/-- A message writes outside only. -/
theorem alikeInside_heard (vars : Fields) (message : Option String) :
    AlikeInside (heard vars message) vars := by
  unfold heard
  split
  · exact alikeInside_put (.head _) vars _
  · exact .refl vars

/-- Variables stay alike inside whatever is written to both. -/
theorem AlikeInside.written (h : AlikeInside vars vars') (es : List Step.Effect) :
    AlikeInside (written vars es) (written vars' es) := by
  induction es generalizing vars vars' with
  | nil => exact h
  | cons e rest ih =>
      refine ih fun name hname => ?_
      rw [Entries.get?_update, Entries.get?_update, h name hname]

theorem written_append (vars : Fields) (es es' : List Step.Effect) :
    written vars (es ++ es') = written (written vars es) es' := List.foldl_append

/-- The effects of two parts of a tour come one after the other. -/
theorem effects_append (stops stops' : List Stop) :
    effects (stops ++ stops') = effects stops ++ effects stops' :=
  List.filterMap_append

theorem effects_singleton (st : Stop) : effects [st] = st.effect?.toList := by
  cases he : st.effect? <;> simp [effects, he]

/-! ### Histories -/

variable {st : Stop} {past stops : List Stop}

/-- The stop ran where the variables were as these. -/
structure Stop.Follows (vars : Fields) (st : Stop) : Prop where
  found : AlikeInside st.session.vars vars
  ran : ∃ setting, ∀ o, st.fate = .over o → (Step.run setting st.node st.session st.answer).Ends o

/-- Each of the stops found the variables with the effects of those before it. -/
def History (vars : Fields) (stops : List Stop) : Prop :=
  ∀ before st after, stops = before ++ st :: after → st.Follows (written vars (effects before))

theorem history_nil (vars : Fields) : History vars [] := fun before st after h => by simp at h

/-- A history up to one of its stops. -/
theorem History.before {rest : List Stop} (h : History vars (past ++ rest)) : History vars past :=
  fun before st after heq => h before st (after ++ rest)
    (by rw [heq, List.append_assoc, List.cons_append])

/-- The last stop of a history follows what was written before. -/
theorem History.last (h : History vars (past ++ [st])) :
    st.Follows (written vars (effects past)) := h past st [] rfl

/-- A history goes on with a stop. -/
theorem History.concat (h : History vars past) (hst : st.Follows (written vars (effects past))) :
    History vars (past ++ [st]) := forall_split_concat h hst

/-! ### Turns and careers -/

variable {first s : Session} {legs : List Leg} {setting : Step.Setting} {now : Calendar.Moment}
  {message : Option String} {e : Ending}

/-- **The stops of a turn go on with a history**, and the turn leaves the variables that it comes
to. -/
theorem Goes.history {f : Frame} {left : Nat} {w : Walk} {n : Flow.Node} {resumed : Bool}
    {answer : Option String} (h : Goes f left w n resumed answer stops e)
    (hpast : History vars past) (hw : AlikeInside w.session.vars (written vars (effects past))) :
    History vars (past ++ stops) ∧
      AlikeInside e.session.vars (written vars (effects (past ++ stops))) := by
  -- a stop finds what the walk holds, and ran in the setting of the turn
  have hstop {past : List Stop} {w : Walk} (n : Flow.Node) (resumed : Bool) (answer : Option String)
    (fate : Fate)
      (hw : AlikeInside w.session.vars (written vars (effects past)))
      (hran : ∀ o, fate = .over o → (Step.run f.setting n w.session answer).Ends o) :
      Stop.Follows (written vars (effects past)) ⟨n, resumed, w.session, answer, fate⟩ :=
        ⟨hw, f.setting, hran⟩
  have hnone {past : List Stop} {st : Stop} (hst : st.effect? = none) :
      effects (past ++ [st]) = effects past := by
    rw [effects_append, effects_singleton, hst, Option.toList_none, List.append_nil]
  have hsome {past : List Stop} {st : Stop} {x : Step.Effect} (hst : st.effect? = some x) :
      written vars (effects (past ++ [st])) = (written vars (effects past)).update x.changes := by
    rw [effects_append, effects_singleton, hst, written_append]
    rfl
  induction h generalizing past with
  | exhausted w n =>
      rw [List.append_nil]
      exact ⟨hpast, hw⟩
  | spared w n resumed answer | deserted w n resumed answer =>
      rw [hnone rfl]
      exact ⟨hpast.concat (hstop n resumed answer _ hw nofun), hw⟩
  | @cut _ w n resumed answer i =>
      rw [hnone rfl]
      refine ⟨hpast.concat (hstop n resumed answer _ hw nofun), ?_⟩
      cases i <;> exact hw
  | @ended _ w n resumed answer r e hr hs =>
      refine ⟨hpast.concat (hstop n resumed answer _ hw fun o ho => by cases ho; exact hr), ?_⟩
      cases hs with
      | failed =>
          rw [hnone rfl]
          exact hw
      | @waits x _ | @handsOff x _ _ | @completes x _ | @strays x _ _ =>
          rw [hsome (x := x) rfl]
          exact hw.written [x]
  | @onward _ w n resumed answer r w' m rest e hr hs t ih =>
      cases hs with
      | @proceeds x =>
          have hnext := hpast.concat (hstop n resumed answer (.over (.done x)) hw fun o ho =>
            by cases ho; exact hr)
          rw [List.append_cons]
          refine ih hnext ?_
          rw [hsome (x := x) rfl]
          exact hw.written [x]

/-- A tour continues a history, and leaves variables that are alike inside to what was written. -/
theorem Tours.history (h : Tours setting now s message stops e) (hpast : History vars past)
    (hs : AlikeInside s.vars (written vars (effects past))) :
    History vars (past ++ stops) ∧
      AlikeInside e.session.vars (written vars (effects (past ++ stops))) := by
  have hbegun : AlikeInside (begun now s message).vars (written vars (effects past)) := by
    rw [vars_begun]
    exact (alikeInside_heard _ _).trans hs
  cases h with
  | refused =>
      rw [List.append_nil]
      exact ⟨hpast, hs⟩
  | lost =>
      rw [List.append_nil]
      exact ⟨hpast, hbegun⟩
  | underway f _ _ he t => exact t.history hpast ((enters_of_entry he).vars ▸ hbegun)

/-- **The stops of a career are a history**, and the session is left with the variables that it
comes to. -/
theorem Career.history (h : Career first legs s) :
    History first.vars (legs.flatMap Leg.stops) ∧
      AlikeInside s.vars (written first.vars (effects (legs.flatMap Leg.stops))) := by
  induction h with
  | opening => exact ⟨history_nil _, .refl _⟩
  | turn _ setting now message timeout t ih =>
      rw [List.flatMap_append, List.flatMap_singleton]
      exact (tours_of_ends t).history ih.1 ih.2
  | orphaned _ ih =>
      rw [List.flatMap_append, List.flatMap_singleton, List.append_nil]
      exact ih
  | ticketed _ _ ticket ih =>
      exact ⟨ih.1, (alikeInside_put (.tail _ (.head _)) _ ticket).trans ih.2⟩
  | noted _ _ text now ih => exact ⟨ih.1, (alikeInside_put (.head _) _ text).trans ih.2⟩
  | released _ _ now ih => exact ih

/-- The stops of a career and of one more turn are a history. -/
theorem Career.history_then (h : Career first legs s) {timeout : Option Binary64}
    (t : (tour setting now s message timeout).Ends (stops, e)) :
    History first.vars (legs.flatMap Leg.stops ++ stops) :=
  ((tours_of_ends t).history h.history.1 h.history.2).1

end Parley.Turn
