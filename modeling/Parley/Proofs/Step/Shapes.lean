import Mathlib.Logic.ExistsUnique
import Parley.Proofs.Step.Courses
import Parley.Turn.Run

/-!
# The shapes of results

The result of a step is handed on as a record of its parts (`Result`), in which four flags can be
raised: the step failed, it waits for an answer, it hands off, the flow ends.  A record can hold any
mixture of these.  The results of nodes do not: each is of exactly one of five shapes, of which four
raise a flag each and the fifth, which goes on, raises none (`Shape.flag?`), and each shape settles
the other parts of the record (`Shape.Parts`).

Who reads a record may look at the flags in any order (`Result.read`).  On a mixture it matters
which is looked at first; on the result of a node it does not (`read_result`), so what a turn makes
of the result does not depend on it.
-/

namespace Parley.Step

/-- The result of a step, part by part. -/
structure Result where
  success : Bool := true
  output : Output := .silence
  next : Option String := none
  vars : Fields := []
  waits : Bool := false
  ends : Bool := false
  handoff : Option Handoff := none
  error : String := ""
  metadata : Fields := []

/-- A result as a document. -/
def Result.toValue (r : Result) : Value :=
  .object [("success", .bool r.success), ("output", r.output.toValue),
    ("next_node_id", .ofOption .text r.next), ("variables", .object r.vars),
    ("wait_for_input", .bool r.waits), ("terminal", .bool r.ends),
    ("handoff", .ofOption Handoff.toValue r.handoff), ("error", .text r.error),
    ("metadata", .object r.metadata)]

/-- The result that an effect comes to. -/
def Effect.result (e : Effect) : Result :=
  let r : Result := { output := e.output, vars := e.changes, metadata := e.metadata }
  match e.course with
  | .proceed next => { r with next := next }
  | .wait => { r with waits := true }
  | .handoff h => { r with handoff := some h }
  | .finish => { r with ends := true }

/-- The result that an outcome comes to. -/
def Outcome.result : Outcome → Result
  | .failed error => { success := false, error := error }
  | .done e => e.result

/-- The record has the same document as the outcome. -/
theorem toValue_result (o : Outcome) : o.result.toValue = o.toValue := by
  cases o with
  | failed error => rfl
  | done e =>
      obtain ⟨output, course, changes, metadata⟩ := e
      cases course <;> rfl

/-! ### Flags -/

/-- What a result can be marked with. -/
inductive Flag where
  | failed
  | waits
  | handsOff
  | ends
  deriving DecidableEq

/-- The flag is raised in the result. -/
def Result.raises (r : Result) : Flag → Bool
  | .failed => !r.success
  | .waits => r.waits
  | .handsOff => r.handoff.isSome
  | .ends => r.ends

/-- The result without its flags and its successor, with a course. -/
def Result.effect (r : Result) (c : Course) : Effect :=
  { output := r.output, course := c, changes := r.vars, metadata := r.metadata }

/-- The outcome that is read off a result by the first raised flag in an order. -/
def Result.read (r : Result) (order : List Flag) : Outcome :=
  match order.find? r.raises with
  | some .failed => .failed r.error
  | some .waits => .done (r.effect .wait)
  | some .handsOff => .done (r.effect (.handoff (r.handoff.getD {})))
  | some .ends => .done (r.effect .finish)
  | none => .done (r.effect (.proceed r.next))

/-- A flag that is raised alone is the first one in every order that has it. -/
theorem find?_raises {r : Result} {flag : Flag} (h : ∀ x, r.raises x = true ↔ x = flag)
    {order : List Flag} (ho : flag ∈ order) : order.find? r.raises = some flag := by
  cases hf : order.find? r.raises with
  | none => exact absurd ((h flag).mpr rfl) (List.find?_eq_none.mp hf flag ho)
  | some x => exact congrArg some ((h x).mp (List.find?_some hf))

/-- A result with two flags is read by the one that is looked at first. -/
example : (({ waits := true, ends := true } : Result).read [.waits, .ends] =
    .done { course := .wait }) ∧
    ({ waits := true, ends := true } : Result).read [.ends, .waits] = .done { course := .finish } :=
  ⟨rfl, rfl⟩

/-! ### Shapes -/

/-- The shapes of results. -/
inductive Shape where
  | failed
  | suspended
  | handsOff
  | terminal
  | advancing
  deriving DecidableEq

/-- The flag that a shape raises. -/
def Shape.flag? : Shape → Option Flag
  | .failed => some .failed
  | .suspended => some .waits
  | .handsOff => some .handsOff
  | .terminal => some .ends
  | .advancing => none

theorem Shape.flag?_injective : Function.Injective Shape.flag? := by
  intro a b h
  cases a <;> cases b <;> first | rfl | cases h

/-- The shape of the result of an outcome. -/
def Outcome.shape : Outcome → Shape
  | .failed _ => .failed
  | .done e => match e.course with
    | .proceed _ => .advancing
    | .wait => .suspended
    | .handoff _ => .handsOff
    | .finish => .terminal

/-- The result of an outcome raises the flag of its shape, and no other. -/
theorem raises_result (o : Outcome) (flag : Flag) :
    o.result.raises flag = true ↔ o.shape.flag? = some flag := by
  obtain error | ⟨output, course, changes, metadata⟩ := o
  · cases flag <;> simp [Outcome.result, Result.raises, Outcome.shape, Shape.flag?]
  · cases course <;> cases flag <;>
      simp [Outcome.result, Effect.result, Result.raises, Outcome.shape, Shape.flag?]

/-- **Read in an order that leaves no flag out, the result of an outcome is that outcome.** -/
theorem read_result (o : Outcome) {order : List Flag} (ho : ∀ flag, flag ∈ order) :
    o.result.read order = o := by
  have hraised (flag : Flag) (hf : o.shape.flag? = some flag) :
      order.find? o.result.raises = some flag := by
    refine find?_raises (fun x => ?_) (ho flag)
    rw [raises_result, hf, Option.some.injEq, eq_comm]
  obtain error | ⟨output, course, changes, metadata⟩ := o
  · rw [Result.read, hraised .failed rfl]
    rfl
  · cases course with
    | wait =>
        rw [Result.read, hraised .waits rfl]
        rfl
    | handoff h =>
        rw [Result.read, hraised .handsOff rfl]
        rfl
    | finish =>
        rw [Result.read, hraised .ends rfl]
        rfl
    | proceed next =>
        have hnone : order.find?
          (Outcome.done ⟨output, .proceed next, changes, metadata⟩).result.raises =
            none := List.find?_eq_none.mpr fun flag _ h => nomatch (raises_result _ flag).mp h
        rw [Result.read, hnone]
        rfl

/-! ### The results of nodes -/

/-- The handle by which the node is left. -/
def Result.handle (r : Result) : String :=
  match r.metadata.get? "handle" with
  | some (.text handle) => handle
  | _ => ""

/-- What a result of a shape is besides its flags, at a node. -/
def Shape.Parts (s : Setting) (n : Flow.Node) (r : Result) : Shape → Prop
  | .failed => r.output = .silence ∧ r.vars = [] ∧ r.next = none ∧ r.error ≠ ""
  | .suspended => MayWait n ∧ r.next = none ∧ r.error = ""
  | .handsOff => MayHandOff n ∧ r.next = none ∧ r.error = ""
  | .terminal => IsEnding n ∧ r.next = none ∧ r.error = ""
  | .advancing => r.error = "" ∧ ∃ target warnings,
      s.flow.route n.id r.handle s.policy.strictRouting = .ok (target, warnings) ∧
        r.next = target.map (·.id)

/-- The result is of the shape. -/
structure Shape.Fits (s : Setting) (n : Flow.Node) (r : Result) (shape : Shape) : Prop where
  flags (flag : Flag) : r.raises flag = true ↔ shape.flag? = some flag
  parts : shape.Parts s n r

variable {s : Setting} {n : Flow.Node} {e : Effect} {session : Session} {answer : Option String}

/-- A result is of one shape at most: its flags tell which. -/
theorem Shape.Fits.unique {r : Result} {shape other : Shape} (h : shape.Fits s n r)
    (h' : other.Fits s n r) : shape = other :=
  Shape.flag?_injective (Option.ext fun flag => (h.flags flag).symm.trans (h'.flags flag))

/-- What is routed leads to what the router finds. -/
theorem Routes.route {id : String} (h : Routes s id e) : ∃ target warnings,
    s.flow.route id e.handle s.policy.strictRouting = .ok (target, warnings) ∧
      e.course = .proceed (target.map (·.id)) := by
  obtain ⟨next, hnext, hc⟩ := h.proceed
  obtain ⟨⟨target, warnings⟩, hroute, hnext⟩ := bind_eq_ok.mp hnext
  exact ⟨target, warnings, hroute, hc.trans (congrArg _ (pure_eq_ok.mp hnext))⟩

/-- A course that the node may take makes a result of its shape. -/
theorem Allows.parts (h : Allows s n e) : (Outcome.done e).shape.Parts s n e.result := by
  obtain ⟨output, course, changes, metadata⟩ := e
  cases h with
  | waits hn hc =>
      obtain rfl : course = .wait := hc
      exact ⟨hn, rfl, rfl⟩
  | handsOff hn hc =>
      obtain rfl := hc
      exact ⟨hn, rfl, rfl⟩
  | finishes hn hc =>
      obtain rfl : course = .finish := hc
      exact ⟨hn, rfl, rfl⟩
  | routes h =>
      obtain ⟨target, warnings, hroute, hc⟩ := h.route
      obtain rfl : course = .proceed (target.map (·.id)) := hc
      exact ⟨rfl, target, warnings, hroute, rfl⟩

/-- A failure of a node says something. -/
theorem error_ne_empty_of_ends {error : String}
    (h : (run s n session answer).Ends (.failed error)) : error ≠ "" := by
  obtain ⟨r, -, h⟩ := Program.ends_bind_iff.mp h
  cases r with
  | ok e => cases Program.ends_done_iff.mp h
  | error f =>
      obtain rfl := Outcome.failed.inj (Program.ends_done_iff.mp h)
      exact f.report_ne_empty

/-- **The result of a node is of the shape of its outcome.** -/
theorem fits_of_ends {o : Outcome} (h : (run s n session answer).Ends o) :
    o.shape.Fits s n o.result := by
  refine ⟨raises_result o, ?_⟩
  cases o with
  | failed error => exact ⟨rfl, rfl, rfl, error_ne_empty_of_ends h⟩
  | done e => exact (allows_of_ends h).parts

/-- **The result of a node is of exactly one shape**, whatever the collaborators `f` reply to the
step, and a turn makes the same of it in whatever order it looks at the flags. -/
theorem result_of_one_shape {σ : Type} (s : Setting) (n : Flow.Node) (session : Session)
    (answer : Option String) (f : (op : Op) → σ → op.Reply × σ) (state : σ) :
    let o := ((run s n session answer).play f state).1
    o.result.toValue = o.toValue ∧ (∃! shape : Shape, shape.Fits s n o.result) ∧
      ∀ order : List Flag, (∀ flag, flag ∈ order) → ∀ (fr : Turn.Frame) (w : Turn.Walk),
        fr.settle w n (o.result.read order) = fr.settle w n o := by
  intro o
  have hfits : o.shape.Fits s n o.result := fits_of_ends (Program.ends_play f _ state)
  refine ⟨toValue_result o, ⟨o.shape, hfits, fun _ h => h.unique hfits⟩, fun order ho fr w => ?_⟩
  rw [read_result o ho]

end Parley.Step
