import Parley.Proofs.Json.Reading
import Parley.Proofs.Step.Saving
import Parley.Proofs.Webhook.Retries

/-!
# The body that a webhook node sends

A webhook node reads its rendered body as a document where it can, and the call writes the value
that it is handed: objects and lists as documents, any other value as the text that is stored of it.

`Conveys rendered content`: the content is the rendered text, or denotes the same value.  What a
node sends conveys its body unless the body denotes null, a truth value, a string, or a number that
is infinite or none (`body_conveyed_iff`): the texts of these are no documents, or denote something
else.
-/

namespace Parley.Http

/-- A body as the text that is sent. -/
def Body.written : Body → String
  | .empty => ""
  | .json v => String.ofList (Json.print .compact v)
  | .text s => s

theorem Client.body_of_prepare {client : Client} {method address : String}
    {params : Option (Entries String)} {headers : Entries String} {body : Body} {request : Request}
    (h : client.prepare method address params headers body = .ok request) :
    checkBody body = .ok request.body := by
  obtain ⟨base, -, h⟩ := Json.bind_eq_ok.mp h
  obtain ⟨own, -, h⟩ := Json.bind_eq_ok.mp h
  obtain ⟨url, -, h⟩ := Json.bind_eq_ok.mp h
  obtain ⟨whole, -, h⟩ := Json.bind_eq_ok.mp h
  obtain ⟨named, -, h⟩ := Json.bind_eq_ok.mp h
  obtain ⟨checked, hchecked, h⟩ := Json.bind_eq_ok.mp h
  cases h
  exact hchecked

theorem checkBody_eq {b b' : Body} (h : checkBody b = .ok b') : b' = b := by
  unfold checkBody at h
  split at h
  · split_ifs at h
    cases h
    rfl
  · cases h
    rfl

end Parley.Http

namespace Parley.Webhook

open Http (Request Body)
open Step (requestBody)
open Template (fill)

variable {c : Call} {vars : Fields} {t rendered : String} {v : Value}

/-- The content is the rendered text, or both denote one value. -/
def Conveys (rendered content : String) : Prop :=
  content = rendered ∨ ∃ v, Json.read rendered = .ok v ∧ Json.read content = .ok v

theorem conveys_iff (h : Json.read rendered = .ok v) {content : String} :
    Conveys rendered content ↔ Json.read content = .ok v := by
  constructor
  · rintro (rfl | ⟨v', hr, hc⟩)
    · exact h
    · rw [h] at hr
      cases hr
      exact hc
  · exact fun hc => .inr ⟨v, h, hc⟩

/-! ### Values as they are sent -/

/-- The value is a list or an object. -/
def hasParts : Value → Bool
  | .list _ | .object _ => true
  | _ => false

/-- The text that is sent of a value without parts. -/
def shown : Value → String
  | .null => ""
  | .text s => s
  | v => v.literal

/-- What is sent of the value denotes it: it has parts, or is a finite number. -/
def isCarried : Value → Bool
  | .int _ | .list _ | .object _ => true
  | .float x => x.toRat?.isSome
  | _ => false

/-- A document that is printed denotes its value. -/
theorem read_printed (h : v.Legible) : Json.read (Body.json v).written = .ok v := by
  obtain ⟨text, htext, hback⟩ := h.read_json Json.Style.isPlain_compact
  rw [Value.json, h.short] at htext
  cases htext
  exact hback

/-- **What is sent of a value without parts** denotes it just when the value is carried: null is
sent as nothing, a string without its quotes, and the names of truth values and of numbers beyond
the finite are none of documents. -/
theorem read_shown_iff (h : v.Legible) (hv : hasParts v = false) :
    Json.read (shown v) = .ok v ↔ isCarried v = true := by
  have hprinted := read_printed h
  cases v with
  | null => exact ⟨nofun, nofun⟩
  | bool b => cases b <;> exact ⟨nofun, nofun⟩
  | int n =>
      rw [Body.written, Json.print, String.ofList_toList] at hprinted
      exact ⟨fun _ => rfl, fun _ => hprinted⟩
  | float x =>
      cases x with
      | nan => exact ⟨nofun, nofun⟩
      | infinite negative => cases negative <;> exact ⟨nofun, nofun⟩
      | finite negative r hr =>
          rw [Body.written, Json.print, Json.printFloat, String.ofList_toList] at hprinted
          · exact ⟨fun _ => rfl, fun _ => hprinted⟩
          · nofun
          · nofun
  | text s => exact ⟨fun hread => absurd (Json.length_lt_of_read_text hread)
      (Nat.lt_irrefl _), nofun⟩
  | list | object => cases hv

/-- A call that is no look-up sends the value that it is handed. -/
theorem content_eq (hverb : c.verb ≠ "GET") : c.content = match c.body with
    | .null | .text "" => .ok .empty
    | .list items => .ok (.json (.list items))
    | .object fields => .ok (.json (.object fields))
    | v => v.plain.map .text := if_neg hverb

/-- What a call that is no look-up sends of a legible value: a document when the value has parts,
else its text. -/
theorem content_of (hverb : c.verb ≠ "GET") (hbody : c.body = v) (h : v.Legible) :
    ∃ b, c.content = .ok b ∧
      (hasParts v = true ∧ b = .json v ∨ hasParts v = false ∧ Http.checkBody b = .ok b ∧
        b.written = shown v) := by
  rw [content_eq hverb, hbody]
  cases v with
  | null => exact ⟨.empty, rfl, .inr ⟨rfl, rfl, rfl⟩⟩
  | list items => exact ⟨_, rfl, .inl ⟨rfl, rfl⟩⟩
  | object fields => exact ⟨_, rfl, .inl ⟨rfl, rfl⟩⟩
  | bool b => exact ⟨.text (shown (.bool b)), rfl, .inr ⟨rfl, rfl, rfl⟩⟩
  | float x => exact ⟨.text (shown (.float x)), rfl, .inr ⟨rfl, rfl, rfl⟩⟩
  | int n =>
      have hplain : (Value.int n).plain = .ok (shown (.int n)) := by
        unfold Value.plain
        dsimp only
        rw [h.short]
        rfl
      exact ⟨.text (shown (.int n)), congrArg (Except.map Body.text) hplain, .inr ⟨rfl, rfl, rfl⟩⟩
  | text s =>
      split
      · next heq => cases heq
      · next heq =>
        cases heq
        exact ⟨.empty, rfl, .inr ⟨rfl, rfl, rfl⟩⟩
      · next heq => cases heq
      · next heq => cases heq
      · exact ⟨.text s, rfl, .inr ⟨rfl, rfl, rfl⟩⟩

/-- What has parts can be sent unless a number in it is infinite or none. -/
theorem checkBody_json (h : v.Legible) :
    Http.checkBody (.json v) = .ok (.json v) ↔ Http.isWritable v = true := by
  unfold Http.checkBody
  dsimp only
  rw [h.short]
  cases Http.isWritable v <;> simp

/-- The body of a text that is not empty is what the filled text denotes. -/
theorem requestBody_of_fill (hne : t ≠ "") {r : Except Fault String} (hfill : fill t vars = r) :
    requestBody vars (some (.text t)) = r.map fun rendered => match Json.read rendered with
      | .ok v => v
      | .error _ => .text rendered := by
  unfold requestBody
  dsimp only
  rw [if_neg hne, hfill]
  cases r with
  | error e => rfl
  | ok rendered =>
      change (match Json.read rendered with
        | .ok v => pure v
        | .error _ => pure (.text rendered)) = Except.ok (match Json.read rendered with
        | .ok v => v
        | .error _ => .text rendered)
      cases Json.read rendered <;> rfl

/-- The body of a request of a text: what the rendered text denotes, or the text; nothing of an
empty text. -/
theorem requestBody_text {body : Value} (hfill : fill t vars = .ok rendered)
    (h : requestBody vars (some (.text t)) = .ok body) :
    body = .null ∧ rendered = "" ∨ body = match Json.read rendered with
      | .ok v => v
      | .error _ => .text rendered := by
  rcases eq_or_ne t "" with rfl | hne
  · have hfillEmpty : fill "" vars = .ok "" := by
      rw [fill, String.toList_empty, Template.pieces]
      rfl
    rw [hfillEmpty] at hfill
    cases h
    cases hfill
    exact .inl ⟨rfl, rfl⟩
  · rw [requestBody_of_fill hne hfill] at h
    cases h
    exact .inr rfl

/-- **What a call sends of a rendered body**: of a text that denotes a value, the value; of any
other, the text. -/
theorem content_of_rendered (hverb : c.verb ≠ "GET") (hfill : fill t vars = .ok rendered)
    (hbody : requestBody vars (some (.text t)) = .ok c.body) :
    ∃ b, c.content = .ok b ∧
      (Http.checkBody b = .ok b ↔
        ∀ v, Json.read rendered = .ok v → isCarried v = true → Http.isWritable v = true) ∧
      (Http.checkBody b = .ok b →
        (Conveys rendered b.written ↔ ∀ v, Json.read rendered = .ok v → isCarried v = true)) := by
  cases hread : Json.read rendered with
  | error e =>
      -- the text is sent, and it denotes nothing
      have hsent : ∃ b, c.content = .ok b ∧ Http.checkBody b = .ok b ∧ b.written = rendered := by
        have hbody' := requestBody_text hfill hbody
        rw [hread] at hbody'
        rcases hbody' with ⟨hnull, rfl⟩ | htext
        · obtain ⟨b, hb, ⟨hv, -⟩ | ⟨-, hcheck, hwritten⟩⟩ :=
            content_of hverb hnull Value.legible_null
          · cases hv
          · exact ⟨b, hb, hcheck, hwritten⟩
        · obtain ⟨b, hb, ⟨hv, -⟩ | ⟨-, hcheck, hwritten⟩⟩ :=
            content_of hverb htext (Value.legible_text rendered)
          · cases hv
          · exact ⟨b, hb, hcheck, hwritten⟩
      obtain ⟨b, hb, hcheck, hwritten⟩ := hsent
      exact ⟨b, hb, ⟨fun _ => nofun, fun _ => hcheck⟩, fun _ =>
        ⟨fun _ => nofun, fun _ => .inl hwritten⟩⟩
  | ok v =>
      have hlegible := Json.read_legible hread
      have hv : c.body = v := by
        have hbody' := requestBody_text hfill hbody
        rw [hread] at hbody'
        rcases hbody' with ⟨-, rfl⟩ | hv
        · cases hread
        · exact hv
      obtain ⟨b, hb, hparts⟩ := content_of hverb hv hlegible
      have hall {P : Value → Prop} :
          (∀ w, (.ok v : Except Json.ReadFault Value) = .ok w → P w) ↔ P v :=
        ⟨fun h => h v rfl, fun h w hw => Except.ok.inj hw ▸ h⟩
      refine ⟨b, hb, ?_⟩
      rw [hall, hall, conveys_iff hread]
      rcases hparts with ⟨hv, rfl⟩ | ⟨hv, hcheck, hwritten⟩
      · have hcarried : isCarried v = true := by
          cases v with
          | list | object => rfl
          | _ => cases hv
        rw [checkBody_json hlegible]
        exact ⟨⟨fun h _ => h, fun h => h hcarried⟩, fun _ =>
          iff_of_true (read_printed hlegible) hcarried⟩
      · have hwritable : isCarried v = true → Http.isWritable v = true := by
          cases v with
          | float x => exact id
          | list | object => cases hv
          | _ => exact fun _ => rfl
        rw [hwritten, read_shown_iff hlegible hv]
        exact ⟨iff_of_true hcheck hwritable, fun _ => Iff.rfl⟩

/-! ### Webhook nodes -/

/-- The call that is asked for. -/
def asked? : Consultation → Option Call
  | .callWebhook url method body headers timeout retries =>
    some { url := url, method := method, body := body, headers := headers, timeout :=
      .ofOption .float timeout,
           attempts := retries }
  | _ => none

/-- A webhook node asks for the call of its method, address, headers and body, and for nothing else.
-/
theorem runWebhook_asks (s : Step.Setting) (id : String) (vars : Fields) (d : Flow.Webhook) :
    Program.AsksOnly (fun op => ∃ url body headers, fill d.url vars = .ok url ∧
      requestBody vars d.body = .ok body ∧ Step.requestHeaders vars d.headers = .ok headers ∧
      op = .consult (.callWebhook url d.method body headers d.timeout d.retryCount)
        s.policy.callBound)
      (Step.runWebhook s id vars d).run := by
  refine Step.asksOnly_lift_bind fun url hurl => Step.asksOnly_bind Step.asksOnly_needs fun _ =>
    Step.asksOnly_bind ?_ fun answer => Step.asksOnly_lift_bind fun _ _ => trivial
  refine Program.AsksOnly.bind (Step.asksOnly_lift_bind fun body hbody =>
    Step.asksOnly_lift_bind fun headers hheaders => ?_) ?_
  · exact ⟨⟨url, body, headers, hurl, hbody, hheaders, rfl⟩, fun _ => trivial⟩
  · rintro (f | answer) <;> trivial

/-- **What a webhook node sends conveys its body but for some values.**  The node has a text for its
body, and calls with a method that is no look-up.  The body can be sent unless what it denotes has a
number in it that is infinite or none; and what is sent conveys the rendered text exactly when that
denotes no value, or a finite number, a list or an object. -/
theorem body_conveyed_iff {s : Step.Setting} {n : Flow.Node} {session : Session}
    {answer : Option String} {d : Flow.Webhook}
    {log : List (Program.Exchange Step.Op Step.Op.Reply)} {o : Step.Outcome}
    (hn : n.block = .webhook d) (ht : d.body = some (.text t))
    (hfill : fill t session.vars = .ok rendered) (h : (Step.run s n session answer).Comes log o)
    {x : Program.Exchange Step.Op Step.Op.Reply} (hx : x ∈ log) :
    ∃ q bound c, x.op = .consult q bound ∧ asked? q = some c ∧ c.method = d.method ∧
      (c.verb ≠ "GET" → ∃ b, c.content = .ok b ∧
        (Http.checkBody b = .ok b ↔
          ∀ v, Json.read rendered = .ok v → isCarried v = true → Http.isWritable v = true) ∧
        ∀ bounds request, c.prepared bounds b = .ok request →
          (Conveys rendered request.body.written ↔ ∀ v, Json.read rendered = .ok v →
            isCarried v = true)) := by
  have hasks : (Step.run s n session answer).AsksOnly _ :=
    Program.AsksOnly.bind (by
      rw [Step.effectOf, hn]; exact runWebhook_asks s n.id session.vars d) fun _ => trivial
  obtain ⟨url, body, headers, -, hbody, -, hop⟩ := hasks.of_mem h x hx
  refine ⟨_, _, _, hop, rfl, rfl, fun hverb => ?_⟩
  rw [ht] at hbody
  obtain ⟨b, hb, hcheck, hconveys⟩ := content_of_rendered hverb hfill hbody
  refine ⟨b, hb, hcheck, fun bounds request hrequest => ?_⟩
  have hchecked := Http.Client.body_of_prepare hrequest
  obtain hrequestBody := Http.checkBody_eq hchecked
  rw [hrequestBody] at hchecked ⊢
  exact hconveys hchecked

/-- A node that reports that a thing is done. -/
def report : Flow.Node :=
  { id := "report", block :=
    .webhook { url := "https://hooks.test/done", method := "POST", body := some (.text "true") } }

/-- A flow with a report. -/
def reporting : Step.Setting :=
  ⟨{ id := "reporting", nodes := [{ id := "start", block := .start {} }, report]
     edges := [{ source := "start", target := "report" }] }, {}, { webhooks := true }⟩

/-- A session in which there is a thing to report. -/
def reporter : Session :=
  { id := "1", flowId := "reporting", contact := { id := "c" }
    startedAt := ⟨⟨2024, 1, 1⟩, 0, some 0⟩, lastActivityAt := ⟨⟨2024, 1, 1⟩, 0, some 0⟩ }

/-- The body `true` is not conveyed. -/
theorem body_conveyed_iff_report :
    fill "true" reporter.vars = .ok "true" ∧ ∃ log o x,
      (Step.run reporting report reporter none).Comes log o ∧ x ∈ log ∧
      ∃ q bound c b, x.op = .consult q bound ∧ asked? q = some c ∧ c.verb ≠ "GET" ∧
        c.content = .ok b ∧
        ∀ bounds request, c.prepared bounds b = .ok request →
          ¬ Conveys "true" request.body.written := by
  have hfill : fill "true" reporter.vars = .ok "true" := Template.fill_nil "true"
  have hbody : requestBody [] (some (.text "true")) = .ok (.bool true) := by
    unfold requestBody
    dsimp only
    rw [if_neg (by decide), Template.fill_nil]
    rfl
  have hrun : ∃ x o, (Step.run reporting report reporter none).Comes [x] o := by
    have hvars : reporter.vars = [] := rfl
    unfold Step.run Step.effectOf
    dsimp only [report, Step.runWebhook]
    rw [hvars, Template.fill_nil, hbody]
    exact ⟨_, _, Program.comes_request_iff.mpr ⟨(.error .timedOut :
      Except Fault WebhookAnswer), [], rfl, .done _⟩⟩
  obtain ⟨x, o, hrun⟩ := hrun
  obtain ⟨q, bound, c, hop, hasked, hmethod, hsent⟩ :=
    body_conveyed_iff rfl rfl hfill hrun (List.mem_singleton_self x)
  have hverb : c.verb ≠ "GET" := by
    unfold Call.verb
    rw [hmethod]
    decide +kernel
  obtain ⟨b, hb, -, hconveys⟩ := hsent hverb
  refine ⟨hfill, [x], o, x, hrun, List.mem_singleton_self x, q, bound, c, b, hop, hasked,
    hverb, hb, ?_⟩
  intro bounds request hrequest hc
  cases (hconveys bounds request hrequest).mp hc (.bool true) rfl

end Parley.Webhook
