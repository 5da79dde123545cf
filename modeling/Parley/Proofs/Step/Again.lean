import Parley.Proofs.Step.Dialogues
import Parley.Proofs.Template.Parts

/-!
# Questions put again

A node that waits keeps its place: an input, a menu and a welcoming assistant by being the node
alone, a lead capture in its cursor, and a contract search in the contracts that wait (`Place`).
The place is kept in the variables that the step leaves (`place_of_waits`).

From its place, run without an answer, a node says something, waits, and writes nothing
(`asks_of_place`).  What it says depends on the variables alone, so it is the same for every session
with these variables (`Asks`).
-/

namespace Parley.Step

open Template (fill Displayable fill_isOk)

/-- The node has a place in the variables from which it goes on. -/
inductive Place (n : Flow.Node) (vars : Fields) : Prop where
  | input {d : Flow.Question} (hn : n.block = .input d)
  | menu {d : Flow.Menu} (hn : n.block = .menu d)
  | welcome {d : Flow.Welcome} (hn : n.block = .welcome d)
  | lead {d : Flow.LeadCapture} {i : Int} {field : String} (hn : n.block = .leadCapture d)
      (hi : cursor? n.id vars = some i) (hlt : i < d.enabledFields.length)
      (hf : fieldAt d.enabledFields i = .ok field)
  | contracts {d : Flow.ContractSearch} {waiting : Value} {message list : String}
      (hn : n.block = .contractSearch d) (hw : pending? n.id vars = some waiting)
      (hl : contractList message waiting = .ok list)

theorem Place.isStart_eq_false {n : Flow.Node} {vars : Fields} (h : Place n vars) :
    n.isStart = false := by
  unfold Flow.Node.isStart
  cases h with
  | input hn | menu hn | welcome hn | lead hn | contracts hn => rw [hn]

/-- Without an answer the node says this to every session with these variables, waits, and writes
nothing. -/
def Asks (n : Flow.Node) (vars : Fields) (o : Output) : Prop :=
  ∀ (s : Setting) (session : Session), session.vars = vars →
    run s n session none = .done (.done { output := o, course := .wait })

variable {s : Setting} {id : String} {n : Flow.Node} {vars : Fields} {answer : Option String}
  {e : Effect}

/-! ### From its place a node asks -/

theorem asks_of_effect {o : Output} (h : ∀ (s : Setting) (session : Session), session.vars = vars →
    effectOf s n session none = pure { output := o, course := .wait }) : Asks n vars o := by
  intro s session hv
  have hnone : givenAnswer none = none := rfl
  rw [run, hnone, h s session hv]
  rfl

/-- Whether contracts can be listed does not depend on the message above them. -/
theorem contractList_isOk {message list : String} {waiting : Value}
    (h : contractList message waiting = .ok list) (other : String) :
    ∃ list', contractList other waiting = .ok list' := by
  obtain ⟨items, hitems, h⟩ := bind_eq_ok.mp h
  obtain ⟨lines, hlines, -⟩ := bind_eq_ok.mp h
  exact ⟨_, bind_eq_ok.mpr ⟨items, hitems, bind_eq_ok.mpr ⟨lines, hlines, rfl⟩⟩⟩

/-- A capture under way asks for the field at its cursor, or hands it the reply. -/
theorem runLeadCapture_open {d : Flow.LeadCapture} {i : Int} {field : String}
    (hi : cursor? id vars = some i) (hlt : i < d.enabledFields.length)
    (hf : fieldAt d.enabledFields i = .ok field) (answer : Option String) :
    runLeadCapture s id vars d answer =
      (liftM (fill (d.questionFor field) vars) : Action String) >>= fun question =>
      match answer with
      | none => pure { output := .one question, course := .wait }
      | some a => answerLead s id vars d d.enabledFields i field question a := by
  unfold runLeadCapture
  cases hfields : d.enabledFields with
  | nil =>
      rw [hfields] at hf
      exact absurd (mem_of_fieldAt hf) List.not_mem_nil
  | cons first rest =>
      rw [hfields] at hlt hf
      dsimp only
      rw [hi]
      dsimp only
      rw [if_neg (Int.not_le.mpr hlt), hf]
      rfl

/-- A capture under way asks for the field at its cursor. -/
theorem runLeadCapture_blank {d : Flow.LeadCapture} {i : Int} {field question : String}
    (hi : cursor? id vars = some i) (hlt : i < d.enabledFields.length)
    (hf : fieldAt d.enabledFields i = .ok field)
    (hq : fill (d.questionFor field) vars = .ok question) :
    runLeadCapture s id vars d none = pure { output := .one question, course := .wait } := by
  rw [runLeadCapture_open hi hlt hf, hq]
  rfl

/-- A search with contracts that wait lists them. -/
theorem runContractSearch_blank {d : Flow.ContractSearch} {contact : Contact} {waiting : Value}
    {message list : String} (hm : fill d.selectionMessage vars = .ok message)
    (hw : pending? id vars = some waiting) (hl : contractList message waiting = .ok list) :
    runContractSearch s id vars contact d none = pure { output := .one list, course := .wait } := by
  have hchoose : chooseContract s id d message waiting none =
      .ok { output := .one list, course := .wait } := by
    change (contractList message waiting >>= _) = _
    rw [hl]
    rfl
  rw [runContractSearch, hm, hw]
  change (liftM (chooseContract s id d message waiting none) : Action Effect) = _
  rw [hchoose]
  rfl

/-- **From its place a node asks**, when all variables can be shown. -/
theorem asks_of_place (h : Place n vars) (hd : Displayable vars) : ∃ o, Asks n vars o := by
  cases h with
  | @input d hn =>
      obtain ⟨question, hq⟩ := fill_isOk hd d.question
      refine ⟨.one question, asks_of_effect fun s session hv => ?_⟩
      rw [effectOf, hn, hv]
      dsimp only
      rw [runInput, hq]
      rfl
  | @menu d hn =>
      obtain ⟨title, ht⟩ := fill_isOk hd d.menuTitle
      refine ⟨.one (renderMenu title d.options), asks_of_effect fun s session hv => ?_⟩
      rw [effectOf, hn, hv]
      dsimp only
      rw [runMenu, ht]
      rfl
  | @welcome d hn =>
      obtain ⟨greeting, hg⟩ := fill_isOk hd d.greetingMessage
      refine ⟨.one greeting, asks_of_effect fun s session hv => ?_⟩
      rw [effectOf, hn, hv]
      dsimp only
      rw [runWelcome, hg]
      rfl
  | @lead d i field hn hi hlt hf =>
      obtain ⟨question, hq⟩ := fill_isOk hd (d.questionFor field)
      refine ⟨.one question, asks_of_effect fun s session hv => ?_⟩
      rw [effectOf, hn, hv]
      exact runLeadCapture_blank hi hlt hf hq
  | @contracts d waiting message list hn hw hl =>
      obtain ⟨message', hm⟩ := fill_isOk hd d.selectionMessage
      obtain ⟨list', hl'⟩ := contractList_isOk hl message'
      refine ⟨.one list', asks_of_effect fun s session hv => ?_⟩
      rw [effectOf, hn, hv]
      exact runContractSearch_blank hm hw hl'

/-! ### A node that waits has a place -/

/-- The capture goes on at a field of the list, when these changes are made. -/
def Resumes (id : String) (vars : Fields) (fields : List String) (changes : Fields) : Prop :=
  ∃ i field, cursor? id (vars.update changes) = some i ∧ i < fields.length ∧
    fieldAt fields i = .ok field

/-- An answer that does not end the capture leaves the cursor where it is, or moves it to the next
field. -/
theorem answerLead_place {d : Flow.LeadCapture} {fields : List String} {i : Int}
    {field question a : String} (hi : cursor? id vars = some i) (hlt : i < fields.length)
    (hf : fieldAt fields i = .ok field)
    (h : Gives (answerLead s id vars d fields i field question a) e) (hw : e.course = .wait) :
    Resumes id vars fields e.changes := by
  unfold answerLead at h
  dsimp only at h
  split at h
  -- the answer is refused
  · obtain rfl := gives_pure.mp h
    exact ⟨i, field, hi, hlt, hf⟩
  · obtain ⟨captured, -, h⟩ := gives_bind.mp h
    split at h
    · next hnext =>
      obtain ⟨next, hfield, h⟩ := gives_bind.mp h
      obtain ⟨question', -, h⟩ := gives_bind.mp h
      obtain rfl := gives_pure.mp h
      refine ⟨i + 1, next, ?_, hnext, gives_lift.mp hfield⟩
      obtain ⟨node, hnode, hsame, -⟩ := capture_isOpen_iff.mp (Option.isSome_iff_exists.mpr ⟨i, hi⟩)
      simp [cursor?, Entries.update, Entries.get?_put, hnode, hsame, Value.asWhole?]
    · exact absurd hw (finishLead_moves d _ e h)

theorem runLeadCapture_place {d : Flow.LeadCapture}
    (h : Gives (runLeadCapture s id vars d answer) e) (hw : e.course = .wait) :
    Resumes id vars d.enabledFields e.changes := by
  unfold runLeadCapture at h
  split at h
  · exact absurd h gives_throw
  · next first rest hfields =>
    rw [hfields]
    dsimp only at h
    split at h
    -- the capture begins at the first field
    · obtain ⟨question, -, h⟩ := bind_eq_ok.mp (gives_lift.mp h)
      obtain ⟨intro, -, h⟩ := bind_eq_ok.mp h
      obtain rfl := pure_eq_ok.mp h
      refine ⟨0, first, ?_, by simp, rfl⟩
      simp [cursor?, Entries.update, Entries.get?_put, Value.asWhole?, Value.same]
    · next i hi =>
      split at h
      · obtain ⟨_, h, -⟩ := gives_bind.mp h
        exact absurd h gives_throw
      · next hlt =>
        obtain ⟨field, hf, h⟩ := gives_bind.mp h
        obtain ⟨question, -, h⟩ := gives_bind.mp h
        cases answer with
        | none =>
            obtain rfl := gives_pure.mp h
            exact ⟨i, field, hi, Int.not_le.mp hlt, gives_lift.mp hf⟩
        | some a => exact answerLead_place hi (Int.not_le.mp hlt) (gives_lift.mp hf) h hw

/-- A search that puts several contracts to the contact keeps them. -/
theorem settleSearch_place {d : Flow.ContractSearch} {message : String} {contracts : Value}
    (h : settleSearch s id vars d message contracts = .ok e) (hw : e.course = .wait) :
    pending? id (vars.update e.changes) = some contracts ∧ ∃ list,
      contractList message contracts = .ok list := by
  unfold settleSearch at h
  split at h
  · obtain ⟨said, -, h⟩ := bind_eq_ok.mp h
    obtain ⟨course, hc, h⟩ := bind_eq_ok.mp h
    obtain rfl := pure_eq_ok.mp h
    exact absurd hw (onward_ne_wait hc)
  · next ht =>
    obtain ⟨count, -, h⟩ := bind_eq_ok.mp h
    split at h
    · obtain ⟨list, hl, h⟩ := bind_eq_ok.mp h
      obtain rfl := pure_eq_ok.mp h
      refine ⟨?_, list, hl⟩
      have htruthy : contracts.isTruthy = true := by simpa using ht
      simp [pending?, Entries.update, Entries.get?_put, htruthy, Value.same]
    · obtain ⟨item, -, h⟩ := bind_eq_ok.mp h
      exact absurd hw (contractFound_moves d item count e (gives_lift.mpr h))

theorem runContractSearch_place {d : Flow.ContractSearch} {contact : Contact}
    (h : Gives (runContractSearch s id vars contact d answer) e) (hw : e.course = .wait) :
    ∃ waiting message list, pending? id (vars.update e.changes) = some waiting ∧
      contractList message waiting = .ok list := by
  obtain ⟨message, -, h⟩ := gives_bind.mp h
  split at h
  -- the contracts waited before, and wait on
  · next waiting hwaiting =>
    replace h := gives_lift.mp h
    obtain ⟨list, hl, -⟩ := chooseContract_waits h hw
    rcases chooseContract_cases h with hnone | ⟨item, count, hfound⟩
    · rw [hnone]
      exact ⟨waiting, message, list, hwaiting, hl⟩
    · exact absurd hw (contractFound_moves d item count e (gives_lift.mpr hfound))
  · obtain ⟨value, -, h⟩ := gives_bind.mp h
    obtain ⟨contracts, -, h⟩ := gives_bind.mp h
    obtain ⟨hpending, list, hl⟩ := settleSearch_place (gives_lift.mp h) hw
    exact ⟨contracts, message, list, hpending, hl⟩

/-- **A node that waits has a place** in the variables that it leaves. -/
theorem place_of_waits {session : Session} (h : (run s n session answer).Ends (.done e))
    (hw : e.course = .wait) :
    Place n (session.vars.update e.changes) := by
  rcases shows_of_waits h hw with hs | ⟨⟨d, hn⟩, -⟩
  · replace h := run_gives h
    unfold effectOf at h
    generalize e.output = o at hs
    cases hs with
    | input hn => exact .input hn
    | menu hn | menuAgain hn => exact .menu hn
    | welcome hn => exact .welcome hn
    | lead hn =>
        rw [hn] at h
        obtain ⟨i, field, hi, hlt, hf⟩ := runLeadCapture_place h hw
        exact .lead hn hi hlt hf
    | contracts hn =>
        rw [hn] at h
        obtain ⟨waiting, message, list, hpending, hl⟩ := runContractSearch_place h hw
        exact .contracts hn hpending hl
  · exact .input hn

end Parley.Step
