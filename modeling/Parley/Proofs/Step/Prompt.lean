import Parley.Proofs.Step.Courses

/-!
# Questions and answers

Five kinds of nodes wait for the contact: inputs, menus, welcoming assistants, lead captures and
contract searches.  Run without an answer such a node puts its question; run with one it may take
it.  A lead capture takes an answer only when its cursor is set, a contract search only when
contracts wait for a choice, and otherwise they begin.

* `TakesAnswer`: a message handed to the node is taken as an answer.
* `Shows`: an output of the node puts its question.
* `shows_of_waits`: a node that waits has put its question, except for an input that turns an answer
  down, which has said so instead.
* `quiet_of_takesAnswer`: a node that takes answers, run without one, asks nothing of the
  collaborators.
-/

namespace Parley.Step

open Template (fill)

/-- A message handed to the node is taken as an answer. -/
def TakesAnswer (n : Flow.Node) (vars : Fields) : Prop :=
  match n.block with
  | .input _ | .menu _ | .welcome _ => True
  | .leadCapture _ => (cursor? n.id vars).isSome
  | .contractSearch _ => (pending? n.id vars).isSome
  | _ => False

/-- The output puts the question of the node. -/
inductive Shows (n : Flow.Node) (vars : Fields) : Output → Prop where
  | input {d : Flow.Question} {question : String} (hn : n.block = .input d)
      (h : fill d.question vars = .ok question) : Shows n vars (.one question)
  | menu {d : Flow.Menu} {title : String} (hn : n.block = .menu d)
      (h : fill d.menuTitle vars = .ok title) : Shows n vars (.one (renderMenu title d.options))
  | menuAgain {d : Flow.Menu} {title : String} (hn : n.block = .menu d)
      (h : fill d.menuTitle vars = .ok title) (before : String) :
      Shows n vars (.several [before, renderMenu title d.options])
  | welcome {d : Flow.Welcome} {greeting : String} (hn : n.block = .welcome d)
      (h : fill d.greetingMessage vars = .ok greeting) : Shows n vars (.one greeting)
  | lead {d : Flow.LeadCapture} {field question : String} (hn : n.block = .leadCapture d)
      (hf : field ∈ d.enabledFields) (h : fill (d.questionFor field) vars = .ok question)
      (before : String) : Shows n vars (.one (before ++ question))
  | contracts {d : Flow.ContractSearch} {message list : String} {contracts : Value}
      (hn : n.block = .contractSearch d) (h : fill d.selectionMessage vars = .ok message)
      (hl : contractList message contracts = .ok list) : Shows n vars (.one list)

variable {s : Setting} {n : Flow.Node} {id : String} {vars : Fields} {answer : Option String}
  {e : Effect}

/-! ### Nodes that never wait -/

/-- The action does not end with an effect that waits. -/
def Moves (a : Action Effect) : Prop := ∀ e, Gives a e → e.course ≠ .wait

/-- Who goes on by a handle does not wait. -/
theorem onward_ne_wait {handle : String} {c : Course} (h : s.onward id handle = .ok c) :
    c ≠ .wait := by
  unfold Setting.onward at h
  cases hn : s.next id handle <;> rw [hn] at h <;> cases h
  exact nofun

/-- A welcoming assistant that is answered goes on. -/
theorem runWelcome_moves (d : Flow.Welcome) (answer : String) :
    Moves (runWelcome s id vars d (some answer)) :=
  runWelcome_ensures (fun _ => onward_ne_wait) (fun _ _ hc => hc ▸ nofun) d answer

/-- A lead that is settled leaves its node. -/
theorem finishLead_moves (d : Flow.LeadCapture) (captured : Fields) :
    Moves (finishLead s id vars d captured) :=
  finishLead_ensures (fun _ => onward_ne_wait) d captured

theorem contractFound_moves (d : Flow.ContractSearch) (contract : Value) (count : Nat) :
    Moves (liftM (contractFound s id d contract count)) :=
  contractFound_ensures (fun _ => onward_ne_wait) d contract count

/-- Only nodes that ask wait. -/
theorem mayWait_of_waits {session : Session} (h : (run s n session answer).Ends (.done e))
    (hw : e.course = .wait) : MayWait n := by
  cases allows_of_ends h with
  | waits hn _ => exact hn
  | handsOff _ hc => cases hw.symm.trans hc
  | finishes _ hc => cases hw.symm.trans hc
  | routes hr => exact absurd hw (onward_ne_wait hr)

/-! ### Nodes that wait -/

/-- A question that waits has been asked, or had an answer. -/
theorem runInput_waits {d : Flow.Question} (hn : n.block = .input d)
    (h : runInput s n.id vars d answer = .ok e) :
    Shows n vars e.output ∨ ∃ a, answer = some a := by
  cases answer with
  | some a => exact .inr ⟨a, rfl⟩
  | none =>
      obtain ⟨question, hq, h⟩ := bind_eq_ok.mp h
      obtain rfl := pure_eq_ok.mp h
      exact .inl (.input hn hq)

/-- A menu that waits has been shown. -/
theorem runMenu_waits {d : Flow.Menu} (hn : n.block = .menu d)
    (h : runMenu s n.id vars d answer = .ok e) (hw : e.course = .wait) : Shows n vars e.output := by
  obtain ⟨title, ht, h⟩ := bind_eq_ok.mp h
  cases answer with
  | none =>
      obtain rfl := pure_eq_ok.mp h
      exact .menu hn ht
  | some a =>
      obtain ⟨choice, -, h⟩ := bind_eq_ok.mp h
      cases choice with
      | none =>
          obtain ⟨said, -, h⟩ := bind_eq_ok.mp h
          obtain rfl := pure_eq_ok.mp h
          exact .menuAgain hn ht _
      | some c =>
          obtain ⟨course, hc, h⟩ := bind_eq_ok.mp h
          obtain rfl := pure_eq_ok.mp h
          exact absurd hw (onward_ne_wait hc)

/-- A welcome that waits has been said. -/
theorem runWelcome_waits {d : Flow.Welcome} (hn : n.block = .welcome d)
    (h : Gives (runWelcome s n.id vars d answer) e) (hw : e.course = .wait) :
    Shows n vars e.output := by
  cases answer with
  | none =>
      obtain ⟨greeting, hg, h⟩ := gives_bind.mp h
      obtain rfl := gives_pure.mp h
      exact .welcome hn (gives_lift.mp hg)
  | some a => exact absurd hw (runWelcome_moves d a e h)

theorem mem_of_fieldAt {fields : List String} {i : Int} {field : String}
    (h : fieldAt fields i = .ok field) : field ∈ fields := by
  unfold fieldAt at h
  split at h
  · cases h
  · generalize (if i < 0 then i + fields.length else i) = place at h
    dsimp only at h
    split at h
    · next hf =>
      cases h
      split at hf
      · cases hf
      · exact List.mem_of_getElem? hf
    · cases h

/-- A lead capture that is answered and waits has put a question: the one it put before, or that of
the next field. -/
theorem answerLead_waits {d : Flow.LeadCapture} {fields : List String} {i : Int}
    {field question a : String} (hf : field ∈ fields)
    (hq : fill (d.questionFor field) vars = .ok question)
    (h : Gives (answerLead s id vars d fields i field question a) e) (hw : e.course = .wait) :
    ∃ before field' question', field' ∈ fields ∧
      fill (d.questionFor field') vars = .ok question' ∧ e.output = .one (before ++ question') := by
  unfold answerLead at h
  dsimp only at h
  split at h
  · obtain rfl := gives_pure.mp h
    exact ⟨_, field, question, hf, hq, rfl⟩
  · obtain ⟨captured, -, h⟩ := gives_bind.mp h
    split at h
    · obtain ⟨next, hnext, h⟩ := gives_bind.mp h
      obtain ⟨question', hq', h⟩ := gives_bind.mp h
      obtain rfl := gives_pure.mp h
      exact ⟨"", next, question', mem_of_fieldAt (gives_lift.mp hnext), gives_lift.mp hq',
        by simp⟩
    · exact absurd hw (finishLead_moves d _ e h)

/-- A lead capture that waits has asked for a field. -/
theorem runLeadCapture_waits {d : Flow.LeadCapture} (hn : n.block = .leadCapture d)
    (h : Gives (runLeadCapture s n.id vars d answer) e) (hw : e.course = .wait) :
    Shows n vars e.output := by
  unfold runLeadCapture at h
  split at h
  · exact absurd h gives_throw
  · next first rest hfields =>
    have hshow {field question : String} (before : String) (hf : field ∈ first :: rest)
        (hq : fill (d.questionFor field) vars = .ok question) :
        Shows n vars (.one (before ++ question)) := .lead hn (hfields ▸ hf) hq before
    dsimp only at h
    split at h
    -- the capture begins: the first question, after the introduction if there is one
    · obtain ⟨question, hq, h⟩ := bind_eq_ok.mp (gives_lift.mp h)
      obtain ⟨intro, -, h⟩ := bind_eq_ok.mp h
      obtain rfl := pure_eq_ok.mp h
      dsimp only
      split
      · simpa using hshow "" List.mem_cons_self hq
      · exact hshow (intro ++ "\n\n") List.mem_cons_self hq
    · split at h
      · obtain ⟨_, h, -⟩ := gives_bind.mp h
        exact absurd h gives_throw
      · obtain ⟨field, hf, h⟩ := gives_bind.mp h
        obtain ⟨question, hq, h⟩ := gives_bind.mp h
        replace hf := mem_of_fieldAt (gives_lift.mp hf)
        replace hq := gives_lift.mp hq
        cases answer with
        | none =>
            obtain rfl := gives_pure.mp h
            simpa using hshow "" hf hq
        | some a =>
            obtain ⟨before, field', question', hf', hq', ho⟩ := answerLead_waits hf hq h hw
            rw [ho]
            exact hshow before hf' hq'

theorem chooseContract_waits {d : Flow.ContractSearch} {message : String} {waiting : Value}
    (h : chooseContract s id d message waiting answer = .ok e) (hw : e.course = .wait) :
    ∃ list, contractList message waiting = .ok list ∧ e.output = .one list := by
  rw [chooseContract_eq] at h
  obtain ⟨chosen, -, h⟩ := bind_eq_ok.mp h
  cases chosen with
  | none =>
      obtain ⟨list, hl, h⟩ := bind_eq_ok.mp h
      obtain rfl := pure_eq_ok.mp h
      exact ⟨list, hl, rfl⟩
  | some i =>
      obtain ⟨item, -, h⟩ := bind_eq_ok.mp h
      obtain ⟨count, -, h⟩ := bind_eq_ok.mp h
      exact absurd hw (contractFound_moves d item count e (gives_lift.mpr h))

theorem settleSearch_waits {d : Flow.ContractSearch} {message : String} {contracts : Value}
    (h : settleSearch s id vars d message contracts = .ok e) (hw : e.course = .wait) :
    ∃ list, contractList message contracts = .ok list ∧ e.output = .one list := by
  unfold settleSearch at h
  split at h
  · obtain ⟨said, -, h⟩ := bind_eq_ok.mp h
    obtain ⟨course, hc, h⟩ := bind_eq_ok.mp h
    obtain rfl := pure_eq_ok.mp h
    exact absurd hw (onward_ne_wait hc)
  · obtain ⟨count, -, h⟩ := bind_eq_ok.mp h
    split at h
    · obtain ⟨list, hl, h⟩ := bind_eq_ok.mp h
      obtain rfl := pure_eq_ok.mp h
      exact ⟨list, hl, rfl⟩
    · obtain ⟨item, -, h⟩ := bind_eq_ok.mp h
      exact absurd hw (contractFound_moves d item count e (gives_lift.mpr h))

/-- A search for a contract that waits has asked for a document or shown a list. -/
theorem runContractSearch_waits {d : Flow.ContractSearch} {contact : Contact}
    (hn : n.block = .contractSearch d)
    (h : Gives (runContractSearch s n.id vars contact d answer) e) (hw : e.course = .wait) :
    Shows n vars e.output := by
  obtain ⟨message, hm, h⟩ := gives_bind.mp h
  replace hm := gives_lift.mp hm
  split at h
  · obtain ⟨list, hl, ho⟩ := chooseContract_waits (gives_lift.mp h) hw
    rw [ho]
    exact .contracts hn hm hl
  · obtain ⟨value, -, h⟩ := gives_bind.mp h
    obtain ⟨contracts, -, h⟩ := gives_bind.mp h
    obtain ⟨list, hl, ho⟩ := settleSearch_waits (gives_lift.mp h) hw
    rw [ho]
    exact .contracts hn hm hl

/-- **A node that waits has put its question**, but for an input that turns an answer down. -/
theorem shows_of_waits {session : Session} (h : (run s n session answer).Ends (.done e))
    (hw : e.course = .wait) :
    Shows n session.vars e.output ∨ (∃ d, n.block = .input d) ∧ ∃ a, answer = some a := by
  have hmay := mayWait_of_waits h hw
  replace h := run_gives h
  revert h hmay
  unfold effectOf MayWait
  cases hn : n.block with
  | input d =>
      intro _ h
      rcases runInput_waits hn (gives_lift.mp h) with hs | ⟨a, ha⟩
      · exact .inl hs
      · refine .inr ⟨⟨d, rfl⟩, ?_⟩
        cases answer with
        | none => cases ha
        | some a => exact ⟨a, rfl⟩
  | menu d => exact fun _ h => .inl (runMenu_waits hn (gives_lift.mp h) hw)
  | welcome d => exact fun _ h => .inl (runWelcome_waits hn h hw)
  | contractSearch d => exact fun _ h => .inl (runContractSearch_waits hn h hw)
  | leadCapture d => exact fun _ h => .inl (runLeadCapture_waits hn h hw)
  | _ => exact False.elim

/-! ### Nodes that take answers -/

/-- Whether a message is taken as an answer depends on four variables alone. -/
theorem takesAnswer_congr {vars' : Fields}
    (h : ∀ name, name ≠ "last_user_message" → vars'.get? name = vars.get? name) :
    TakesAnswer n vars' ↔ TakesAnswer n vars := by
  unfold TakesAnswer cursor? pending?
  rw [h "lead_capture_node" (by decide), h "lead_capture_index" (by decide),
    h "pending_contracts" (by decide), h "identify_contract_node" (by decide)]

/-- A lead capture that is under way asks for nothing when it is not answered. -/
theorem still_lead {d : Flow.LeadCapture} {i : Int} (hi : cursor? id vars = some i) :
    Still (runLeadCapture s id vars d none) := by
  unfold runLeadCapture
  split
  · exact still_throw _
  · rw [hi]
    dsimp only
    split
    · exact (still_throw _).bind fun _ => (still_lift _).bind fun _ => (still_lift _).bind fun _ =>
        still_pure _
    · exact (still_lift _).bind fun _ => (still_lift _).bind fun _ => still_pure _

/-- A selection that is under way asks for nothing when it is not answered. -/
theorem still_search {d : Flow.ContractSearch} {contact : Contact} {waiting : Value}
    (hw : pending? id vars = some waiting) :
    Still (runContractSearch s id vars contact d none) := by
  unfold runContractSearch
  rw [hw]
  exact (still_lift _).bind fun _ => still_lift _

/-- **A node that takes answers, run without one, asks nothing of the collaborators.** -/
theorem quiet_of_takesAnswer {session : Session} (h : TakesAnswer n session.vars) :
    (run s n session none).Quiet := by
  refine run_quiet ?_
  revert h
  unfold effectOf TakesAnswer
  cases n.block with
  | input d | menu d => exact fun _ => still_lift _
  | welcome d => exact fun _ => (still_lift _).bind fun _ => still_pure _
  | leadCapture d =>
      intro h
      obtain ⟨i, hi⟩ := Option.isSome_iff_exists.mp h
      exact still_lead hi
  | contractSearch d =>
      intro h
      obtain ⟨waiting, hw⟩ := Option.isSome_iff_exists.mp h
      exact still_search hw
  | _ => exact False.elim

end Parley.Step
