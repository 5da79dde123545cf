import Parley.Proofs.Step.Replies
import Parley.Proofs.Step.Saving

/-!
# What a welcoming assistant makes of its collaborators

A welcoming assistant asks media about a message that is not plain text, and a model when it answers
the message itself.  Either may fail, be late or not be there, and media may answer with any value.

`Heard` says what a message is read as, with the exchange by which it was: the message itself unless
media tell something of it.  `Told` says the same of the answer of the model, which is empty unless
there is one.

There are answers of media that the step does not get past: the words of a recording that are no
text, and named values of which a name is no text (`Unusable`).  The step fails exactly when it is
given one of these, and otherwise greets, hands over or answers on the ground of what was heard and
told (`welcome_breaks_iff`).
-/

namespace Parley.Step

open Program (Exchange Comes)
open Template (fill Displayable fill_isOk)

variable {s : Setting} {n : Flow.Node} {d : Flow.Welcome} {vars : Fields} {a : String}
  {log : List (Exchange Op Op.Reply)}

/-! ### What media tell of a message -/

/-- Media are asked about a message of a kind, and this is the exchange. -/
inductive Inquiry (s : Setting) (d : Flow.Welcome) (a : String) :
    Media.Kind → Except Fault Value → Exchange Op Op.Reply → Prop where
  | audio (h : d.capabilities.handleAudio = true) (r : Except Fault Value) :
      Inquiry s d a .audio r
        ⟨.consult (.transcribe a d.audioTranscriptionProvider) s.policy.callBound, r⟩
  | paymentProof (h : d.capabilities.handlePaymentProof = true) (r : Except Fault Value) :
      Inquiry s d a .paymentProof r
        ⟨.consult (.extractFields a d.ocrProvider d.paymentProofFields) s.policy.callBound, r⟩
  | image (h : d.capabilities.handleImages = true) (r : Except Fault Value) :
      Inquiry s d a .image r ⟨.consult (.describeImage a) s.policy.callBound, r⟩
  | document (h : d.capabilities.handleDocuments = true) (r : Except Fault Value) :
      Inquiry s d a .document r ⟨.consult (.readDocument a) s.policy.callBound, r⟩

/-- What a message of a kind is read as when media answer with the value, and what is named by it.
-/
def readAs : Media.Kind → Value → Except Fault (Value × Named)
  | .audio, v => .ok (v, [(.text "audio_transcription", v)])
  | .paymentProof, v => do
    let summary ← v.json .spaced
    match namedValues? v with
    | some found => .ok (.text ("Comprovante de pagamento recebido: " ++ summary), found)
    | none => .error (.notIterable v.kindWord)
  | .image, v => do return (.text ("Imagem recebida: " ++ (← v.plain)),
      [(.text "image_description", v)])
  | .document, v => do return (.text ("Documento recebido: " ++ (← v.plain)),
      [(.text "document_content", v)])
  | .text, v => .ok (v, [])

/-- What a message of a kind is read as, what is named by it, and the exchange with media by which
it is. -/
inductive Heard (s : Setting) (d : Flow.Welcome) (a : String) (kind : Media.Kind) :
    List (Exchange Op Op.Reply) → Value → Named → Prop where
  | unasked (h : s.team.media = false ∨ ∀ r x, ¬ Inquiry s d a kind r x) :
      Heard s d a kind [] (.text a) []
  /-- Media fail, or are late. -/
  | failed {f : Fault} {x : Exchange Op Op.Reply} (hx : Inquiry s d a kind (.error f) x) :
      Heard s d a kind [x] (.text a) []
  /-- The answer of media cannot be read. -/
  | illegible {f : Fault} {v : Value} {x : Exchange Op Op.Reply} (hx : Inquiry s d a kind (.ok v) x)
      (hv : readAs kind v = .error f) : Heard s d a kind [x] (.text a) []
  | told {v reading : Value} {found : Named} {x : Exchange Op Op.Reply}
      (hx : Inquiry s d a kind (.ok v) x) (hv : readAs kind v = .ok (reading, found)) :
      Heard s d a kind [x] reading found

/-- A message that media are not asked about is read as it is. -/
theorem readMedia_unasked {kind : Media.Kind} (h : ∀ r x, ¬ Inquiry s d a kind r x) :
    readMedia s d a kind = pure (.text a, []) := by
  unfold readMedia
  cases kind with
  | text => rfl
  | audio =>
      cases hon : d.capabilities.handleAudio with
      | false => rfl
      | true => exact absurd (.audio hon (.ok .null)) (h _ _)
  | paymentProof =>
      cases hon : d.capabilities.handlePaymentProof with
      | false => rfl
      | true => exact absurd (.paymentProof hon (.ok .null)) (h _ _)
  | image =>
      cases hon : d.capabilities.handleImages with
      | false => rfl
      | true => exact absurd (.image hon (.ok .null)) (h _ _)
  | document =>
      cases hon : d.capabilities.handleDocuments with
      | false => rfl
      | true => exact absurd (.document hon (.ok .null)) (h _ _)

/-- A message that media are asked about is read as their answer makes it. -/
theorem readMedia_asked {kind : Media.Kind} {reply₀ : Except Fault Value}
    {x₀ : Exchange Op Op.Reply} (hx : Inquiry s d a kind reply₀ x₀)
    {r : Except Fault (Value × Named)} (h : Comes (readMedia s d a kind).run log r) :
    ∃ reply x, Inquiry s d a kind reply x ∧ log = [x] ∧ r = reply >>= readAs kind := by
  cases hx with
  | audio hon =>
      have heq : readMedia s d a .audio =
          s.consult (.transcribe a d.audioTranscriptionProvider) >>=
              fun v => liftM (readAs .audio v) := by
        unfold readMedia
        rw [hon]
        rfl
      rw [heq] at h
      obtain ⟨reply, rfl, hr⟩ := comes_consult_lift h
      exact ⟨reply, _, .audio hon reply, rfl, hr⟩
  | paymentProof hon =>
      have heq : readMedia s d a .paymentProof =
          s.consult (.extractFields a d.ocrProvider d.paymentProofFields) >>= fun v =>
            liftM (readAs .paymentProof v) := by
        unfold readMedia
        rw [hon]
        refine congrArg (s.consult _ >>= ·) (funext fun v => ?_)
        change Value at v
        dsimp only [readAs]
        cases v.json .spaced with
        | error f => rfl
        | ok summary => cases namedValues? v <;> rfl
      rw [heq] at h
      obtain ⟨reply, rfl, hr⟩ := comes_consult_lift h
      exact ⟨reply, _, .paymentProof hon reply, rfl, hr⟩
  | image hon =>
      have heq : readMedia s d a .image =
          s.consult (.describeImage a) >>= fun v => liftM (readAs .image v) := by
        unfold readMedia
        rw [hon]
        refine congrArg (s.consult _ >>= ·) (funext fun v => ?_)
        change Value at v
        dsimp only [readAs]
        cases v.plain <;> rfl
      rw [heq] at h
      obtain ⟨reply, rfl, hr⟩ := comes_consult_lift h
      exact ⟨reply, _, .image hon reply, rfl, hr⟩
  | document hon =>
      have heq : readMedia s d a .document =
          s.consult (.readDocument a) >>= fun v => liftM (readAs .document v) := by
        unfold readMedia
        rw [hon]
        refine congrArg (s.consult _ >>= ·) (funext fun v => ?_)
        change Value at v
        dsimp only [readAs]
        cases v.plain <;> rfl
      rw [heq] at h
      obtain ⟨reply, rfl, hr⟩ := comes_consult_lift h
      exact ⟨reply, _, .document hon reply, rfl, hr⟩

/-- **What a message is read as.**  Reading it never breaks off. -/
theorem readMediaOr_comes {kind : Media.Kind} {r : Except Fault (Value × Named)}
    (h : Comes (readMediaOr s d a kind).run log r) :
    ∃ reading found, r = .ok (reading, found) ∧ Heard s d a kind log reading found := by
  unfold readMediaOr at h
  split at h
  · by_cases hasked : ∃ reply x, Inquiry s d a kind reply x
    · obtain ⟨reply₀, x₀, hx₀⟩ := hasked
      obtain ⟨⟨reading, found⟩, rfl, hread | ⟨hraw, f, hread⟩⟩ := comes_tryCatch_pure h
      · obtain ⟨reply, x, hx, rfl, hr⟩ := readMedia_asked hx₀ hread
        refine ⟨reading, found, rfl, ?_⟩
        cases reply with
        | ok v => exact .told hx hr.symm
        | error f => cases hr
      · cases hraw
        obtain ⟨reply, x, hx, rfl, hr⟩ := readMedia_asked hx₀ hread
        refine ⟨_, _, rfl, ?_⟩
        cases reply with
        | ok v => exact .illegible hx hr.symm
        | error f => exact .failed hx
    · have hno : ∀ reply x, ¬ Inquiry s d a kind reply x := fun reply x hx => hasked ⟨reply, x, hx⟩
      rw [readMedia_unasked hno] at h
      obtain ⟨rfl, rfl⟩ := Program.comes_done_iff.mp h
      exact ⟨_, _, rfl, .unasked (.inr hno)⟩
  · next hmedia =>
    obtain ⟨rfl, rfl⟩ := Program.comes_done_iff.mp h
    exact ⟨_, _, rfl, .unasked (.inl (Bool.eq_false_iff.mpr hmedia))⟩

/-! ### What the model tells -/

/-- A welcoming assistant asks the model to answer a message, and this is the exchange. -/
inductive Request (s : Setting) (d : Flow.Welcome) (vars : Fields) (heard : String) :
    Except Fault String → Exchange Op Op.Reply → Prop where
  | complete {prompt context : String} (ht : s.team.completion = true)
      (hp : fill d.systemPrompt vars = .ok prompt)
      (hc : contextBlock d.contextVariables vars = .ok context) (r : Except Fault String) :
      Request s d vars heard r
        ⟨.consult (.complete (prompt ++ context) heard []
          (if d.model = "" then none else some d.model)
          d.temperature none) s.policy.callBound, r⟩

/-- The answer of the model to a message, empty unless there is one, and the exchange by which it
is. -/
inductive Told (s : Setting) (d : Flow.Welcome) (vars : Fields) (heard : String) :
    List (Exchange Op Op.Reply) → String → Prop where
  | unasked (h : s.team.completion = false) : Told s d vars heard [] ""
  /-- The model fails, or is late. -/
  | failed {f : Fault} {x : Exchange Op Op.Reply} (hx : Request s d vars heard (.error f) x) :
      Told s d vars heard [x] ""
  | told {reply : String} {x : Exchange Op Op.Reply} (hx : Request s d vars heard (.ok reply) x) :
      Told s d vars heard [x] reply

/-- A context can be written when all variables can be shown. -/
theorem contextBlock_isOk (hv : Displayable vars) (names : List String) :
    ∃ block, contextBlock names vars = .ok block := by
  have hshown (name : String) : ∃ shown, displayOf vars name = .ok shown := by
    unfold displayOf
    cases hget : vars.get? name with
    | none => exact ⟨"", rfl⟩
    | some v => exact hv name v hget
  obtain ⟨lines, hlines⟩ := @mapM_isOk _ _ (fun n => do return n ++ ": " ++ (← displayOf vars n))
    (names.filter vars.has) fun name _ => by
      obtain ⟨shown, hshown⟩ := hshown name
      exact ⟨_, by rw [hshown]; rfl⟩
  exact ⟨_, bind_eq_ok.mpr ⟨lines, hlines, rfl⟩⟩

/-- What the assistant asks the model. -/
def asksModel (s : Setting) (d : Flow.Welcome) (vars : Fields) (heard : String) :
    Action String := do
  needs s.team.completion "no completion service configured"
  let prompt := (← fill d.systemPrompt vars) ++ (← contextBlock d.contextVariables vars)
  s.consult (.complete prompt heard []
    (if d.model = "" then none else some d.model) d.temperature none)

/-- **What the model tells.**  Asking it never breaks off. -/
theorem replyOr_comes {heard : String} {r : Except Fault String} (hv : Displayable vars)
    (h : Comes (replyOr (asksModel s d vars heard)).run log r) :
    ∃ reply, r = .ok reply ∧ Told s d vars heard log reply := by
  obtain ⟨prompt, hprompt⟩ := fill_isOk hv d.systemPrompt
  obtain ⟨context, hcontext⟩ := contextBlock_isOk hv d.contextVariables
  obtain ⟨reply, rfl, hask⟩ := comes_tryCatch_pure h
  refine ⟨reply, rfl, ?_⟩
  unfold asksModel at hask
  rw [hprompt, hcontext] at hask
  cases hteam : s.team.completion with
  | false =>
      rw [hteam] at hask
      rcases hask with hask | ⟨rfl, f, hask⟩
      · cases (Program.comes_done_iff.mp hask).2
      · obtain ⟨rfl, -⟩ := Program.comes_done_iff.mp hask
        exact .unasked hteam
  | true =>
      rw [hteam] at hask
      rcases hask with hask | ⟨rfl, f, hask⟩
      · obtain rfl := reaches_consult hask
        exact .told (.complete hteam hprompt hcontext _)
      · obtain ⟨answer, rest, rfl, hrest⟩ := Program.comes_request_iff.mp hask
        obtain ⟨rfl, rfl⟩ := Program.comes_done_iff.mp hrest
        exact .failed (.complete hteam hprompt hcontext _)

/-! ### What cannot be used -/

/-- Media answered with something that the step cannot use: the words of a recording that are no
text, or named values of which a name is no text. -/
inductive Unusable : Exchange Op Op.Reply → Prop where
  | words {payload provider : String} {bound : Option Binary64} {v : Value}
      (hv : ∀ t, v ≠ .text t) :
      Unusable ⟨.consult (.transcribe payload provider) bound, (.ok v : Except Fault Value)⟩
  | names {payload provider summary : String} {fields : List String} {bound : Option Binary64}
      {v name given : Value}
      {found : Named} (hj : v.json .spaced = .ok summary) (hv : namedValues? v = some found)
      (he : (name, given) ∈ found) (hn : ∀ t, name ≠ .text t) :
      Unusable ⟨.consult (.extractFields payload provider fields) bound,
        (.ok v : Except Fault Value)⟩

/-- Named values make variables when their names are texts. -/
theorem variablesOf_isOk_iff {found : Named} :
    (∃ read, variablesOf found = .ok read) ↔ ∀ e ∈ found, ∃ t, e.1 = .text t := by
  have hbound {r : Except Fault (List (String × Value))} :
      (∃ read, (r >>= fun pairs => pure (Entries.ofPairs pairs)) = .ok read) ↔
          ∃ pairs, r = .ok pairs := by
    constructor
    · rintro ⟨read, h⟩
      obtain ⟨pairs, hpairs, -⟩ := bind_eq_ok.mp h
      exact ⟨pairs, hpairs⟩
    · rintro ⟨pairs, hpairs⟩
      exact ⟨_, bind_eq_ok.mpr ⟨pairs, hpairs, rfl⟩⟩
  unfold variablesOf
  rw [hbound]
  constructor
  · rintro ⟨pairs, hpairs⟩
    induction found generalizing pairs with
    | nil => exact List.forall_mem_nil _
    | cons e rest ih =>
        rw [List.mapM_cons] at hpairs
        obtain ⟨pair, hpair, hpairs⟩ := bind_eq_ok.mp hpairs
        obtain ⟨others, hothers, -⟩ := bind_eq_ok.mp hpairs
        refine List.forall_mem_cons.mpr ⟨?_, ih others hothers⟩
        split at hpair
        · next t ht => exact ⟨t, ht⟩
        · cases hpair
  · intro h
    refine mapM_isOk fun e he => ?_
    obtain ⟨t, ht⟩ := h e he
    exact ⟨(t, e.2), by rw [ht]⟩

/-- What was heard can be used unless media answered with something unusable. -/
theorem Heard.usable_iff {kind : Media.Kind} {reading : Value} {found : Named}
    (h : Heard s d a kind log reading found) :
    ((∃ t, reading = .text t) ∧ ∀ e ∈ found, ∃ t, e.1 = .text t) ↔ ∀ x ∈ log, ¬ Unusable x := by
  cases h with
  | unasked => exact ⟨fun _ => List.forall_mem_nil _, fun _ => ⟨⟨a, rfl⟩, List.forall_mem_nil _⟩⟩
  | failed hx =>
      refine ⟨fun _ x hmem hu => ?_, fun _ => ⟨⟨a, rfl⟩, List.forall_mem_nil _⟩⟩
      obtain rfl := List.mem_singleton.mp hmem
      cases hx <;> cases hu
  | illegible hx hr =>
      refine ⟨fun _ x hmem hu => ?_, fun _ => ⟨⟨a, rfl⟩, List.forall_mem_nil _⟩⟩
      obtain rfl := List.mem_singleton.mp hmem
      cases hx with
      | audio => cases hr
      | paymentProof =>
          cases hu with
          | names hj hv =>
              rw [readAs, hj, hv] at hr
              cases hr
      | image | document => cases hu
  | told hx hr =>
      rw [List.forall_mem_singleton]
      cases hx with
      | audio =>
          cases hr
          refine ⟨fun ⟨⟨t, ht⟩, _⟩ hu => ?_, fun hu => ⟨?_, ?_⟩⟩
          · cases hu with
            | words hv => exact hv t ht
          · by_contra hno
            exact hu (.words fun t ht => hno ⟨t, ht⟩)
          · exact List.forall_mem_singleton.mpr ⟨_, rfl⟩
      | paymentProof =>
          obtain ⟨summary, hj, hr⟩ := bind_eq_ok.mp hr
          split at hr
          · next named hv =>
            cases hr
            refine ⟨fun ⟨_, hnames⟩ hu => ?_, fun hu => ⟨⟨_, rfl⟩, fun e he => ?_⟩⟩
            · cases hu with
              | names _ hv' he hn =>
                  obtain ⟨t, ht⟩ := hnames _ (Option.some.inj (hv'.symm.trans hv) ▸ he)
                  exact hn t ht
            · by_contra hno
              exact hu (.names hj hv he fun t ht => hno ⟨t, ht⟩)
          · cases hr
      | image | document =>
          obtain ⟨shown, -, hr⟩ := bind_eq_ok.mp hr
          cases hr
          exact ⟨fun _ hu => (by cases hu), fun _ =>
            ⟨⟨_, rfl⟩, List.forall_mem_singleton.mpr ⟨_, rfl⟩⟩⟩

/-- What is made of the variables that are read is made, unless what was heard cannot be used. -/
theorem Heard.made {kind : Media.Kind} {t : String} {found : Named}
    {log' : List (Exchange Op Op.Reply)} {r : Except Fault Effect} {effect : Fields → Effect}
    {P : Effect → Prop} (h : Heard s d a kind log (.text t) found)
    (hr : r = variablesOf found >>= fun read => .ok (effect read)) (ho : ∀ x ∈ log', ¬ Unusable x)
    (hw : ∀ read, variablesOf found = .ok read → P (effect read)) :
    (∃ e, r = .ok e ∧ P e ∧ ∀ x ∈ log ++ log', ¬ Unusable x) ∨
      ∃ f, r = .error f ∧ ∃ x ∈ log ++ log', Unusable x := by
  cases hread : variablesOf found with
  | ok read =>
      rw [hread] at hr
      have hnames := variablesOf_isOk_iff.mp ⟨read, hread⟩
      exact .inl ⟨_, hr, hw read hread, List.forall_mem_append.mpr
        ⟨h.usable_iff.mp ⟨⟨t, rfl⟩, hnames⟩, ho⟩⟩
  | error f =>
      rw [hread] at hr
      refine .inr ⟨f, hr, ?_⟩
      by_contra hno
      have hnames := (h.usable_iff.mpr fun x hx hu => hno ⟨x, List.mem_append_left _ hx, hu⟩).2
      obtain ⟨read, hok⟩ := variablesOf_isOk_iff.mpr hnames
      rw [hread] at hok
      cases hok

theorem Told.usable {heard reply : String} (h : Told s d vars heard log reply) :
    ∀ x ∈ log, ¬ Unusable x := by
  intro x hx hu
  cases h with
  | unasked => cases hx
  | failed hr | told hr =>
      cases hr
      obtain rfl := List.mem_singleton.mp hx
      cases hu

/-! ### Steps -/

/-- What the assistant makes of an answer, or of none, on the ground of what it heard and was told.
-/
inductive Welcomed (s : Setting) (n : Flow.Node) (d : Flow.Welcome) (vars : Fields) :
    Option String → List (Exchange Op Op.Reply) → Effect → Prop where
  | greets {said : String} (hsaid : fill d.greetingMessage vars = .ok said) :
      Welcomed s n d vars none [] { output := .one said, course := .wait }
  /-- A word that asks for a person occurs in what was heard. -/
  | person {a heard said : String} {log : List (Exchange Op Op.Reply)} {found : Named}
      {read : Fields}
      (hh : Heard s d a (.detect a) log (.text heard) found) (hread : variablesOf found = .ok read)
      (hm : (d.enableSmartRouting && mentions (Text.lower heard) d.humanHandoffTriggers) = true)
      (hsaid : fill d.humanHandoffMessage vars = .ok said) :
      Welcomed s n d vars (some a) log
        { output := .one said
          changes := read.update [("handoff_target", .text d.humanHandoffDepartment),
            ("handoff_reason", .text "user_request")]
          course := .handoff { targetId := d.humanHandoffDepartment, reason := "user_request",
                               metadata := [("node_id", .text n.id), ("message", .text heard)] } }
  /-- A word of a sector occurs in what was heard. -/
  | sector {a heard : String} {log : List (Exchange Op Op.Reply)} {found : Named} {read : Fields}
      {sector : Flow.Sector} (hh : Heard s d a (.detect a) log (.text heard) found)
      (hread : variablesOf found = .ok read)
      (hm : (d.enableSmartRouting && mentions (Text.lower heard) d.humanHandoffTriggers) = false)
      (hs : d.sectors.find? (fun x => d.enableSmartRouting &&
        mentions (Text.lower heard) x.keywords) = some sector) :
      Welcomed s n d vars (some a) log
        { output := .one ("Entendi! Vou transferir para " ++ sector.name ++ ".")
          course := .proceed ((s.flow.successor? n.id "sector_ai").map (·.id))
          changes := read.update [("sector_ai_id", .text sector.id),
            ("sector_ai_name", .text sector.name), ("original_message", .text heard)]
          metadata := [("handle", .text "sector_ai")] }
  /-- No such word occurs; without an answer of the model the assistant falls back. -/
  | itself {a heard said reply : String} {log log' : List (Exchange Op Op.Reply)} {found : Named}
      {read : Fields}
      (hh : Heard s d a (.detect a) log (.text heard) found) (hread : variablesOf found = .ok read)
      (hm : (d.enableSmartRouting && mentions (Text.lower heard) d.humanHandoffTriggers) = false)
      (hs : d.sectors.find? (fun x => d.enableSmartRouting &&
        mentions (Text.lower heard) x.keywords) = none)
      (ht : Told s d vars heard log' reply)
      (hsaid : (if reply = "" then fill d.fallbackMessage vars else .ok reply) = .ok said) :
      Welcomed s n d vars (some a) (log ++ log')
        { output := .one said
          course := .proceed ((s.flow.successor? n.id "continue").map (·.id))
          changes := read.update [("welcome_ai_response", .text reply),
            ("original_message", .text heard), ("media_type", .text (Media.Kind.detect a).name)]
          metadata := [("handle", .text "continue")] }

/-- An answer of the assistant itself is that of the model or, without one, what it falls back on.
-/
theorem answersItself_comes {kind : Media.Kind} {heard : String} {found : Named}
    {r : Except Fault Effect} (hs : s.policy.strictRouting = false) (hv : Displayable vars)
    (h : Comes (answersItself s n.id vars d kind heard found).run log r) :
    ∃ reply said, Told s d vars heard log reply ∧
      (if reply = "" then fill d.fallbackMessage vars else .ok reply) = .ok said ∧
      r = variablesOf found >>= fun read => .ok
        { output := .one said
          course := .proceed ((s.flow.successor? n.id "continue").map (·.id))
          changes := read.update [("welcome_ai_response", .text reply),
            ("original_message", .text heard), ("media_type", .text kind.name)]
          metadata := [("handle", .text "continue")] } := by
  obtain ⟨log₁, log₂, reply, rfl, hask, h⟩ := (comes_bind h).resolve_left fun ⟨_, _, hask⟩ => by
    obtain ⟨_, heq, -⟩ := @replyOr_comes s d vars _ heard _ hv hask
    cases heq
  obtain ⟨_, heq, htold⟩ := @replyOr_comes s d vars _ heard _ hv hask
  cases heq
  -- the fallback is said where the assistant has nothing to say
  obtain ⟨said, hsaid⟩ :
      ∃ said, (if reply = "" then fill d.fallbackMessage vars else .ok reply) = .ok said := by
    split
    · exact fill_isOk hv d.fallbackMessage
    · exact ⟨reply, rfl⟩
  refine ⟨reply, said, ?_⟩
  rw [onward_lenient hs] at h
  dsimp only at h
  split at h
  · next hblank =>
    have hfill := hsaid
    rw [if_pos hblank] at hfill
    rw [hfill] at h
    cases hread : variablesOf found <;> rw [hread] at h <;> obtain ⟨rfl, rfl⟩ :=
      Program.comes_done_iff.mp h
    all_goals
      rw [List.append_nil]
      exact ⟨htold, hsaid, rfl⟩
  · next hblank =>
    have hfill := hsaid
    rw [if_neg hblank] at hfill
    cases hfill
    cases hread : variablesOf found <;> rw [hread] at h <;> obtain ⟨rfl, rfl⟩ :=
      Program.comes_done_iff.mp h
    all_goals
      rw [List.append_nil]
      exact ⟨htold, hsaid, rfl⟩

/-- A message is welcomed, unless what was heard of it cannot be used. -/
theorem runWelcome_comes {r : Except Fault Effect} (hs : s.policy.strictRouting = false)
    (hv : Displayable vars) (h : Comes (runWelcome s n.id vars d (some a)).run log r) :
    (∃ e, r = .ok e ∧ Welcomed s n d vars (some a) log e ∧ ∀ x ∈ log, ¬ Unusable x) ∨
      ∃ f, r = .error f ∧ ∃ x ∈ log, Unusable x := by
  unfold runWelcome at h
  rcases comes_bind h with ⟨f, -, hread⟩ | ⟨log₁, log₂, ⟨reading, found⟩, rfl, hread, h⟩
  · obtain ⟨_, _, heq, -⟩ := readMediaOr_comes hread
    cases heq
  · obtain ⟨_, _, heq, hheard⟩ := readMediaOr_comes hread
    cases heq
    -- what was heard must be a text before words are looked for in it
    obtain ⟨t, rfl⟩ | hwords := Classical.em (∃ t, reading = .text t)
    · change Comes (ExceptT.run (if _ then _ else _)) log₂ r at h
      split at h
      · next hm =>
        obtain ⟨said, hsaid⟩ := fill_isOk hv d.humanHandoffMessage
        obtain ⟨rfl, hr⟩ := Program.comes_done_iff.mp h
        unfold callsForPerson at hr
        rw [hsaid] at hr
        refine hheard.made hr (List.forall_mem_nil _) fun read hread => ?_
        rw [List.append_nil]
        exact .person hheard hread hm hsaid
      · next hm =>
        split at h
        · next sector hsector =>
          obtain ⟨rfl, hr⟩ := Program.comes_done_iff.mp h
          unfold goesToSector at hr
          rw [onward_lenient hs] at hr
          refine hheard.made hr (List.forall_mem_nil _) fun read hread => ?_
          rw [List.append_nil]
          exact .sector hheard hread (Bool.eq_false_iff.mpr hm) hsector
        · next hsector =>
          obtain ⟨reply, said, htold, hsaid, hr⟩ := answersItself_comes hs hv h
          exact hheard.made hr htold.usable fun read hread =>
            .itself hheard hread (Bool.eq_false_iff.mpr hm) hsector htold hsaid
    · have hr : log₂ = [] ∧ ∃ f, r = .error f := by
        cases reading with
        | text t => exact absurd ⟨t, rfl⟩ hwords
        | _ => exact ⟨(Program.comes_done_iff.mp h).1, _, (Program.comes_done_iff.mp h).2⟩
      obtain ⟨rfl, f, rfl⟩ := hr
      refine .inr ⟨f, rfl, ?_⟩
      by_contra hno
      exact hwords (hheard.usable_iff.mpr fun x hx hu => hno ⟨x, List.mem_append_left _ hx, hu⟩).1

/-- **A welcoming assistant never fails on its collaborators but for two answers of media.**  All
variables can be shown and routing is lenient.  Whatever the collaborators answer, fail with or are
late with, the step fails exactly when media answer with words that are no text or with named values
of which a name is no text; otherwise it greets or welcomes the answer: what was heard is the
message itself when media fail, and what is said is the fallback when the model has no reply. -/
theorem welcome_breaks_iff {session : Session} (hs : s.policy.strictRouting = false)
    (hv : Displayable session.vars) (hn : n.block = .welcome d) (answer : Option String)
    {o : Outcome} (h : (run s n session answer).Comes log o) :
    ((∃ error, o = .failed error) ↔ ∃ x ∈ log, Unusable x) ∧
      ∀ e, o = .done e → Welcomed s n d session.vars (givenAnswer answer) log e := by
  obtain ⟨log₁, log₂, r, rfl, hr, h⟩ := Program.comes_bind_iff.mp h
  obtain ⟨rfl, rfl⟩ := Program.comes_done_iff.mp h
  rw [List.append_nil]
  unfold effectOf at hr
  rw [hn] at hr
  cases hgiven : givenAnswer answer with
  | none =>
      obtain ⟨greeting, hgreeting⟩ := fill_isOk hv d.greetingMessage
      rw [hgiven] at hr
      dsimp only [runWelcome] at hr
      rw [hgreeting] at hr
      obtain ⟨rfl, rfl⟩ := Program.comes_done_iff.mp hr
      refine ⟨⟨nofun, fun ⟨_, hx, _⟩ => absurd hx List.not_mem_nil⟩, fun e he => ?_⟩
      cases he
      exact .greets hgreeting
  | some a =>
      rw [hgiven] at hr
      rcases runWelcome_comes hs hv hr with ⟨e, rfl, hw, husable⟩ | ⟨f, rfl, hx⟩
      · refine ⟨⟨nofun, fun ⟨x, hx, hu⟩ => absurd hu (husable x hx)⟩, fun e' he => ?_⟩
        cases he
        exact hw
      · exact ⟨⟨fun _ => hx, fun _ => ⟨_, rfl⟩⟩, nofun⟩

/-- A reception that listens to recordings. -/
def reception : Flow.Node :=
  { id := "reception", block :=
    .welcome { fallbackMessage := "One moment.", capabilities := { handleAudio := true } } }

/-- A flow with a reception. -/
def lobby : Setting :=
  ⟨{ id := "lobby", nodes := [{ id := "start", block := .start {} }, reception]
     edges := [{ source := "start", target := "reception" }] }, {}, { media := true }⟩

/-- A session of someone who was greeted. -/
def visitor : Session :=
  { id := "1", flowId := "lobby", contact := { id := "c" }
    startedAt := ⟨⟨2024, 1, 1⟩, 0, some 0⟩, lastActivityAt := ⟨⟨2024, 1, 1⟩, 0, some 0⟩ }

/-- Media that answer a recording with no words at all make the step fail. -/
theorem welcome_breaks_iff_reception :
    lobby.policy.strictRouting = false ∧ Displayable visitor.vars ∧
      ∃ log o, (run lobby reception visitor (some "[AUDIO] 1")).Comes log o ∧
        ∃ error, o = .failed error := by
  have hv : Displayable visitor.vars := nofun
  have hgiven : givenAnswer (some "[AUDIO] 1") = some "[AUDIO] 1" := by decide
  have hkind : Media.Kind.detect "[AUDIO] 1" = .audio := by decide
  have hrun : ∃ o, (run lobby reception visitor (some "[AUDIO] 1")).Comes
      [⟨.consult (.transcribe "[AUDIO] 1" "whisper")
          lobby.policy.callBound, (.ok .null : Except Fault Value)⟩] o := by
    unfold run effectOf
    rw [hgiven]
    dsimp only [reception, runWelcome]
    rw [hkind]
    exact ⟨_, Program.comes_request_iff.mpr ⟨(.ok .null : Except Fault Value), [], rfl, .done _⟩⟩
  obtain ⟨o, ho⟩ := hrun
  refine ⟨rfl, hv, _, o, ho, (welcome_breaks_iff rfl hv rfl _ ho).1.mpr ?_⟩
  exact ⟨_, List.mem_singleton_self _, .words nofun⟩

end Parley.Step
