import Parley.Desk.Remote
import Parley.Media.Remote
import Parley.Proofs.Http.Attempts
import Parley.Proofs.Json.Reading

/-!
# What services of the web are asked, and what comes of it

A back office and a reader of media on the web are asked ten kinds of things (`Errand`).  For each
there is a kind of result that is declared (`Errand.Declares`), and what the service answers is to
become such a result or a failure of the service (`Errand.Kept`).

A gateway makes three requests at most, and what is answered last tells what it comes to
(`Gateway.ask_spec`).  That all attempts failed is told as a failure of the service.  A document is
taken as it comes, and not every document becomes a result of the kind that is declared: the promise
is kept exactly for those that suit the errand (`promise_kept_iff`).
-/

namespace Parley

namespace Http

open Program (Comes)

/-- The request is one to the web, and no wait. -/
def Op.isSend : Op → Bool
  | .send _ => true
  | .sleep _ => false

/-- The answer in an exchange. -/
def answer? : Program.Exchange Op Op.Reply → Option Response
  | ⟨.send _, reply⟩ => (show Except (Trouble × String) Response from reply).toOption
  | ⟨.sleep _, _⟩ => none

/-- How often something is asked of the web. -/
def Log.sends (log : Log) : Nat := log.countP (·.op.isSend)

/-- The answer that came last. -/
def Log.last? (log : Log) : Option Response := log.getLast?.bind answer?

theorem Log.last?_more (log rest : Log) (seconds : Rat) :
    Log.last? (log ++ ⟨.sleep seconds, ()⟩ :: rest) = Log.last? rest := by
  unfold Log.last?
  rw [List.getLast?_append, List.getLast?_cons]
  cases rest.getLast? <;> rfl

namespace Client

variable {c : Client} {log : Log} {o : Except Fault Response} {r : Request}

/-- An answer that would send the client on does not report success. -/
theorem not_isSuccess_of_location {a : Response} {location : String}
    (h : location? a = some location) :
    a.isSuccess = false := by
  unfold location? at h
  split at h
  · next hstatus =>
    simp only [List.contains_eq_mem, List.mem_cons, List.not_mem_nil, or_false,
      decide_eq_true_eq] at hstatus
    unfold Response.isSuccess
    rcases hstatus with hs | hs | hs | hs | hs <;> rw [hs] <;> rfl
  · cases h

/-- What a client makes of a reply: a fault where no answer came or the answer would send the client
on, and otherwise the answer. -/
theorem settle_cases (hc : c.followsRedirects = false)
    (reply : Except (Trouble × String) Response) :
    (∃ e, c.settle r reply = .error e ∧ ∀ a, reply = .ok a → a.isSuccess = false) ∨
      ∃ a, c.settle r reply = .ok (.inl a) ∧ reply = .ok a := by
  cases reply with
  | error trouble => exact .inl ⟨_, rfl, nofun⟩
  | ok a =>
      cases hlocation : location? a with
      | none => exact .inr ⟨a, settle_answered c r hlocation, rfl⟩
      | some location =>
          have hsettle : c.settle r (.ok a) = (requestAfter r a.status location).map fun _ =>
              .inl a := by
            simp [settle, hlocation, hc]
          rw [hsettle]
          cases requestAfter r a.status location with
          | error e => exact .inl ⟨e, rfl, fun _ ha => Except.ok.inj ha ▸
              not_isSuccess_of_location hlocation⟩
          | ok next => exact .inr ⟨a, rfl, rfl⟩

/-- **A client that does not follow** makes one request, or none. -/
theorem send_comes (hc : c.followsRedirects = false) {method address : String}
    {params : Option (Entries String)} {headers : Entries String} {body : Body}
    (h : (c.send method address params headers body).Comes log o) :
    log.sends ≤ 1 ∧ ((∃ e, o = .error e ∧ ∀ a, log.last? = some a → a.isSuccess = false) ∨
      ∃ a, o = .ok a ∧ log.last? = some a) := by
  unfold send at h
  split at h
  · next e _ =>
    obtain ⟨rfl, rfl⟩ := Program.comes_done_iff.mp h
    exact ⟨Nat.zero_le 1, .inl ⟨e, rfl, nofun⟩⟩
  · next r _ =>
    unfold follow at h
    obtain ⟨reply, rest, rfl, hrest⟩ := Program.comes_request_iff.mp h
    change Except (Trouble × String) Response at reply
    dsimp only [Program.bind] at hrest
    rcases settle_cases (r := r) hc reply with ⟨e, hsettle, hfail⟩ | ⟨a, hsettle, rfl⟩
    · rw [hsettle] at hrest
      obtain ⟨rfl, rfl⟩ := Program.comes_done_iff.mp hrest
      refine ⟨Nat.le_refl 1, .inl ⟨e, rfl, fun a ha => hfail a ?_⟩⟩
      cases reply with
      | error trouble => cases ha
      | ok a' => exact congrArg Except.ok (Option.some.inj ha)
    · rw [hsettle] at hrest
      obtain ⟨rfl, rfl⟩ := Program.comes_done_iff.mp hrest
      exact ⟨Nat.le_refl 1, .inr ⟨a, rfl, rfl⟩⟩

end Client

/-! ### Attempts -/

namespace Patience

variable {p : Patience} {β : Type} {Attempt : Log → β → Prop} {made : Nat} {os : List β} {log : Log}

/-- Attempts make one request each at most. -/
theorem Tries.sends_le (h : p.Tries Attempt made os log)
    (hone : ∀ log o, Attempt log o → log.sends ≤ 1) :
    log.sends ≤ os.length := by
  induction h with
  | last h => exact hone _ _ h
  | more h _ ih =>
      unfold Log.sends at *
      rw [List.countP_append, List.countP_cons_of_neg (by simp [Op.isSend]), List.length_cons]
      have := hone _ _ h
      omega

/-- The answer that came last is that of the last attempt. -/
theorem Tries.last_attempt (h : p.Tries Attempt made os log) {o : β} (ho : os.getLast? = some o) :
    ∃ part, Attempt part o ∧ log.last? = part.last? := by
  induction h with
  | @last _ o' log h =>
      obtain rfl := Option.some.inj ho
      exact ⟨log, h, rfl⟩
  | @more _ o' os log rest h hrest ih =>
      have hne : os ≠ [] := by
        rintro rfl
        cases hrest
      rw [List.getLast?_cons_of_ne_nil hne] at ho
      obtain ⟨part, hpart, hlast⟩ := ih ho
      exact ⟨part, hpart, (Log.last?_more log rest _).trans hlast⟩

end Patience
end Http

/-! ### Gateways -/

namespace Gateway

open Http

/-- The document that came last, if it was one. -/
def told? (g : Gateway) (log : Log) : Option Value := log.last?.bind fun a => (g.read a).toOption

variable {g : Gateway} {request method : String} {address : Except Parley.Fault String}
  {params : Option (Entries String)} {body : Body} {log : Log}

/-- An attempt makes one request at most, and comes to the document that it is answered with. -/
theorem attempt_spec (hg : g.client.followsRedirects = false) {o : Except Http.Fault Value}
    (h : Program.Comes (match address with
      | .error e => .done (.error (.unwritable e))
      | .ok address => (g.client.send method address params [] body).bind fun a =>
          .done (a.bind g.read)) log o) :
    log.sends ≤ 1 ∧ g.told? log = o.toOption := by
  cases address with
  | error e =>
      obtain ⟨rfl, rfl⟩ := Program.comes_done_iff.mp h
      exact ⟨Nat.zero_le 1, rfl⟩
  | ok address =>
      obtain ⟨log, _, answer, rfl, hsend, h⟩ := Program.comes_bind_iff.mp h
      obtain ⟨rfl, rfl⟩ := Program.comes_done_iff.mp h
      rw [List.append_nil]
      obtain ⟨hone, ⟨e, rfl, hfail⟩ | ⟨a, rfl, hlast⟩⟩ := Client.send_comes hg hsend
      · refine ⟨hone, ?_⟩
        unfold told?
        cases hlast : Log.last? log with
        | none => rfl
        | some a =>
            rw [Option.bind_some, read, hfail a hlast]
            rfl
      · refine ⟨hone, ?_⟩
        rw [told?, hlast]
        rfl

/-- **A gateway makes three requests at most**, and comes to the document that was answered last, or
to the failure of all attempts when no document was. -/
theorem ask_spec (hg : g.client.followsRedirects = false) {r : Except Failure Value}
    (h : (g.ask request method address params body).Comes log r) :
    log.sends ≤ 3 ∧ ((∃ v, g.told? log = some v ∧ r = .ok v) ∨
      g.told? log = none ∧ ∃ cause, r = .error (.exhausted request cause)) := by
  obtain ⟨log, _, outcome, rfl, hrun, h⟩ := Program.comes_bind_iff.mp h
  obtain ⟨rfl, rfl⟩ := Program.comes_done_iff.mp h
  rw [List.append_nil]
  obtain ⟨os, htries, hos⟩ := Patience.persist_comes hrun
  refine ⟨(htries.sends_le fun log o ho => (attempt_spec hg ho).1).trans hos.length_le, ?_⟩
  obtain ⟨part, hpart, hlast⟩ := htries.last_attempt hos.last
  have htold : g.told? log = outcome.toOption := by
    rw [told?, hlast]
    exact (attempt_spec hg hpart).2
  cases outcome with
  | ok v => exact .inl ⟨v, htold, rfl⟩
  | error cause => exact .inr ⟨htold, cause, rfl⟩

/-- What is told is legible. -/
theorem legible_of_told {v : Value} (h : g.told? log = some v) : v.Legible := by
  obtain ⟨a, -, hread⟩ := Option.bind_eq_some_iff.mp h
  unfold read at hread
  split at hread
  · split at hread
    · cases hread
      exact Value.legible_object.mpr ⟨List.nodup_nil, nofun⟩
    · unfold Response.document at hread
      dsimp only at hread
      split at hread
      · next v' hv =>
        obtain rfl := Option.some.inj hread
        exact Json.read_legible hv
      all_goals cases hread
  · cases hread

theorem use_comes {α : Type} {f : Value → Except Parley.Fault α}
    {p : Exchange (Except Failure Value)} {r : Except Failure α} (h : (use f p).Comes log r) :
    ∃ answer, p.Comes log answer ∧ r = answer.bind fun v => (f v).mapError .unusable := by
  obtain ⟨log, _, answer, rfl, hp, h⟩ := Program.comes_bind_iff.mp h
  obtain ⟨rfl, rfl⟩ := Program.comes_done_iff.mp h
  rw [List.append_nil]
  exact ⟨answer, hp, rfl⟩

end Gateway

/-! ### Errands -/

/-- What a service is asked for. -/
inductive Errand where
  | findContracts (identifyBy value : String)
  | clientType (contract : String)
  | checkDuplicate (value : Value) (field table : String)
  | saveLead (table : String) (fields : Fields) (source : String) (tags : List String)
  | sendLead (url : String) (fields : Fields) (source : String) (tags : List String)
  | createTicket (target priority reason : String) (metadata : Fields)
  | transcribe (payload provider : String)
  | extractFields (payload provider : String) (fields : List String)
  | describeImage (payload : String)
  | readDocument (payload : String)

namespace Errand

/-- What an errand results in: a truth value, nothing, or a value. -/
abbrev Result : Errand → Type
  | .checkDuplicate .. => Bool
  | .saveLead .. | .sendLead .. => Unit
  | _ => Value

/-- The services that errands go to. -/
structure Services where
  office : Desk.Remote
  media : Media.Remote

/-- The services of sections of the settings. -/
def Services.ofConfig (office media : Fields) : Services := ⟨.ofConfig office, .ofConfig media⟩

/-- The gateway that an errand goes to. -/
def gateway (s : Services) : Errand → Gateway
  | .transcribe .. | .extractFields .. | .describeImage _ | .readDocument _ => s.media.gateway
  | _ => s.office.gateway

/-- An errand is done; leads are dated. -/
def run (s : Services) (now : Calendar.Moment) :
    (e : Errand) → Http.Exchange (Except Gateway.Failure e.Result)
  | .findContracts identifyBy value => s.office.findContracts identifyBy value
  | .clientType contract => s.office.clientType contract
  | .checkDuplicate value field table => s.office.checkDuplicate value field table
  | .saveLead table fields source tags => s.office.saveLead table fields source tags now
  | .sendLead url fields source tags => s.office.sendLead url fields source tags now
  | .createTicket target priority reason metadata =>
      s.office.createTicket target priority reason metadata
  | .transcribe payload provider => s.media.transcribe payload provider
  | .extractFields payload provider fields => s.media.extractFields payload provider fields
  | .describeImage payload => s.media.describeImage payload
  | .readDocument payload => s.media.readDocument payload

/-- The entry of a document that a reader of media looks for. -/
def readingOf (entry : String) (standard v : Value) : Except Fault Value := do
  return ((← v.entriesFor "get").get? entry).getD standard

/-- What an errand makes of the document that it is answered with. -/
def make : (e : Errand) → Value → Except Fault e.Result
  | .findContracts .. => Desk.Remote.unwrap
  | .clientType _ => Desk.Remote.typeOf
  | .checkDuplicate .. => fun v => .ok (Desk.Remote.tellsDuplicate v)
  | .saveLead .. | .sendLead .. => fun _ => .ok ()
  | .createTicket .. => .ok
  | .transcribe .. => readingOf "text" (.text "")
  | .extractFields .. => readingOf "fields" (.object [])
  | .describeImage _ => readingOf "description" (.text "")
  | .readDocument _ => readingOf "content" (.text "")

/-- The gateway is asked for a document, of which the errand makes its result. -/
theorem exists_ask (s : Services) (now : Calendar.Moment) (e : Errand) :
    ∃ request method address params body,
    e.run s now = Gateway.use e.make ((e.gateway s).ask request method address params body) := by
  cases e with
  | checkDuplicate value field table =>
      unfold run Desk.Remote.checkDuplicate
      dsimp only
      split <;> exact ⟨_, _, _, _, _, rfl⟩
  | createTicket target priority reason metadata =>
      refine ⟨_, _, _, _, _, (Program.bind_done _).symm.trans (Program.bind_congr fun r _ => ?_)⟩
      cases r <;> rfl
  | _ => exact ⟨_, _, _, _, _, rfl⟩

/-- The value is a list of objects. -/
def IsRecords (v : Value) : Prop := ∃ records : List Fields, v = .list (records.map .object)

/-- Null or a text. -/
def IsOptionalText (v : Value) : Prop := v = .null ∨ ∃ t, v = .text t

/-- The result is of the kind that is declared. A truth value, and the lack of a result, are so by
their types. -/
def Declares : (e : Errand) → e.Result → Prop
  | .findContracts .., v => IsRecords v
  | .clientType _, v => IsOptionalText v
  | .checkDuplicate .., _ | .saveLead .., _ | .sendLead .., _ => True
  | .createTicket .., v | .extractFields .., v => ∃ fields, v = .object fields
  | .transcribe .., v | .describeImage _, v | .readDocument _, v => ∃ t, v = .text t

/-- The promise of a service: a result of the kind that is declared, or a failure of the service. -/
def Kept (e : Errand) (r : Except Gateway.Failure e.Result) : Prop :=
  (∃ v, r = .ok v ∧ e.Declares v) ∨ ∃ request cause, r = .error (.exhausted request cause)

/-- The document is an object of which the entry, if there is one, is as the test demands. -/
def HasEntry (entry : String) (test : Value → Prop) (v : Value) : Prop :=
  ∃ fields : Fields, v = .object fields ∧ ∀ w, fields.get? entry = some w → test w

/-- The document is no object, or the type of a client in it is a text or none.  It goes by one of
two names; what goes by the first counts when it is present. -/
def TellsType (v : Value) : Prop := ∀ fields : Fields, v = .object fields →
  let told := (fields.get? "client_type").getD .null
  (told.isTruthy = true → ∃ t, told = .text t) ∧
    (told.isTruthy = false → IsOptionalText ((fields.get? "tipo_cliente").getD .null))

/-- The document is a list of objects, or an object with one as `data`, or else as `results`, or
without both. -/
def HasRecords (v : Value) : Prop := IsRecords v ∨ ∃ fields : Fields, v = .object fields ∧
  IsRecords (((fields.get? "data").or (fields.get? "results")).getD (.list []))

/-- The document suits the errand. -/
def Suits : Errand → Value → Prop
  | .findContracts .., v => HasRecords v
  | .clientType _, v => TellsType v
  | .checkDuplicate .., _ | .saveLead .., _ | .sendLead .., _ => True
  | .createTicket .., v => ∃ fields, v = .object fields
  | .transcribe .., v => HasEntry "text" (fun w => ∃ t, w = .text t) v
  | .extractFields .., v => HasEntry "fields" (fun w => ∃ fields, w = .object fields) v
  | .describeImage _, v => HasEntry "description" (fun w => ∃ t, w = .text t) v
  | .readDocument _, v => HasEntry "content" (fun w => ∃ t, w = .text t) v

theorem readingOf_iff {entry : String} {standard v : Value} {test : Value → Prop}
    (h : test standard) :
    HasEntry entry test v ↔ ∃ x, readingOf entry standard v = .ok x ∧ test x := by
  cases v with
  | object fields =>
      have hread : readingOf entry standard (.object fields) =
        .ok ((Entries.get? fields entry).getD standard) := rfl
      rw [hread]
      constructor
      · rintro ⟨_, ⟨⟩, htest⟩
        refine ⟨_, rfl, ?_⟩
        cases hw : Entries.get? fields entry with
        | none => exact h
        | some w => exact htest w hw
      · rintro ⟨_, ⟨⟩, htest⟩
        exact ⟨fields, rfl, fun w hw => by rwa [hw] at htest⟩
  | _ => exact iff_of_false (fun ⟨_, h, _⟩ => nomatch h) fun ⟨_, h, _⟩ => nomatch h

theorem hasRecords_iff {v : Value} :
    HasRecords v ↔ ∃ x, Desk.Remote.unwrap v = .ok x ∧ IsRecords x := by
  cases v with
  | list items =>
      constructor
      · rintro (h | ⟨_, h, -⟩)
        · exact ⟨_, rfl, h⟩
        · cases h
      · rintro ⟨_, ⟨⟩, h⟩
        exact .inl h
  | object fields =>
      have hunwrap : Desk.Remote.unwrap (.object fields) =
          .ok (((Entries.get? fields "data").or (Entries.get? fields "results")).getD
              (.list [])) := by
        unfold Desk.Remote.unwrap Value.entriesFor
        dsimp only [bind, Except.bind]
        cases Entries.get? fields "data" <;> rfl
      rw [hunwrap]
      constructor
      · rintro (⟨_, h⟩ | ⟨_, ⟨⟩, h⟩)
        · cases h
        · exact ⟨_, rfl, h⟩
      · rintro ⟨_, ⟨⟩, h⟩
        exact .inr ⟨fields, rfl, h⟩
  | _ =>
      constructor
      · rintro (⟨_, h⟩ | ⟨_, h, -⟩) <;> cases h
      · rintro ⟨_, h, -⟩
        cases h

theorem tellsType_object_iff (fields : Fields) :
    TellsType (.object fields) ↔ ∃ x, Desk.Remote.typeOf (.object fields) = .ok x ∧
      IsOptionalText x := by
  have htype : Desk.Remote.typeOf (.object fields) =
    .ok (if ((fields.get? "client_type").getD .null).isTruthy
      then (fields.get? "client_type").getD .null else (fields.get? "tipo_cliente").getD .null) :=
        rfl
  have hall : TellsType (.object fields) ↔
    (((fields.get? "client_type").getD .null).isTruthy = true →
      ∃ t, (fields.get? "client_type").getD .null = .text t) ∧
      (((fields.get? "client_type").getD .null).isTruthy = false →
        IsOptionalText ((fields.get? "tipo_cliente").getD .null)) :=
    ⟨fun h => h fields rfl, fun h _ he => Value.object.inj he ▸ h⟩
  rw [htype, hall]
  generalize (fields.get? "client_type").getD .null = told
  cases htruthy : told.isTruthy with
  | true =>
      constructor
      · exact fun h => ⟨_, rfl, .inr (h.1 rfl)⟩
      · rintro ⟨_, ⟨⟩, rfl | htext⟩
        · cases htruthy
        · exact ⟨fun _ => htext, nofun⟩
  | false =>
      constructor
      · exact fun h => ⟨_, rfl, h.2 rfl⟩
      · rintro ⟨_, ⟨⟩, h⟩
        exact ⟨nofun, fun _ => h⟩

/-- The type of a client is told by any document but an object. -/
theorem typeOf_of_not_object {v : Value} (hv : v.Legible) (hobject : ∀ fields, v ≠ .object fields) :
    ∃ x, Desk.Remote.typeOf v = .ok x ∧ IsOptionalText x := by
  have htype : Desk.Remote.typeOf v = if v.isTruthy then v.plain.map .text else .ok .null := by
    cases v with
    | object fields => exact absurd rfl (hobject fields)
    | _ => rfl
  obtain ⟨t, ht⟩ : ∃ t, v.plain = .ok t := by
    unfold Value.plain
    split
    · exact ⟨_, rfl⟩
    · exact ⟨_, if_neg (Bool.eq_false_iff.mp hv.short)⟩
  rw [htype, ht]
  split
  · exact ⟨.text t, rfl, .inr ⟨t, rfl⟩⟩
  · exact ⟨.null, rfl, .inl rfl⟩

/-- **A document suits an errand** exactly when the errand makes a result of it that is of the kind
declared. -/
theorem suits_iff (e : Errand) {v : Value} (hv : v.Legible) :
    e.Suits v ↔ ∃ x, e.make v = .ok x ∧ e.Declares x := by
  cases e with
  | findContracts => exact hasRecords_iff
  | clientType =>
      cases v with
      | object fields => exact tellsType_object_iff fields
      | _ => exact iff_of_true nofun (typeOf_of_not_object hv nofun)
  | checkDuplicate | saveLead | sendLead => exact iff_of_true trivial ⟨_, rfl, trivial⟩
  | createTicket => exact ⟨fun h => ⟨v, rfl, h⟩, fun ⟨_, hx, h⟩ => Except.ok.inj hx ▸ h⟩
  | transcribe | describeImage | readDocument => exact readingOf_iff ⟨"", rfl⟩
  | extractFields => exact readingOf_iff ⟨[], rfl⟩

/-- Sections of the settings make clients that do not follow. -/
theorem followsRedirects_ofConfig (office media : Fields) (e : Errand) :
    (e.gateway (.ofConfig office media)).client.followsRedirects = false := by
  cases e <;> rfl

/-- **The promise is kept exactly for documents that suit the errand.**  Whatever the web replies,
an errand makes three requests at most.  What it comes to is a result of the kind that is declared
or a failure of the service, unless the answer that came last is a document that does not suit the
errand. -/
theorem promise_kept_iff {σ : Type} (office media : Fields) (now : Calendar.Moment) (e : Errand)
    (web : (op : Http.Op) → σ → op.Reply × σ) (s : σ) :
    let log := (e.run (.ofConfig office media) now).transcript web s
    Http.Log.sends log ≤ 3 ∧ (e.Kept ((e.run (.ofConfig office media) now).play web s).1 ↔
      ∀ v, (e.gateway (.ofConfig office media)).told? log = some v → e.Suits v) := by
  have hcomes := Program.comes_play web (e.run (.ofConfig office media) now) s
  generalize (e.run (.ofConfig office media) now).transcript web s = log at *
  generalize ((e.run (.ofConfig office media) now).play web s).1 = r at *
  obtain ⟨request, method, address, params, body, hrun⟩ := e.exists_ask (.ofConfig office media) now
  rw [hrun] at hcomes
  obtain ⟨answer, hask, rfl⟩ := Gateway.use_comes hcomes
  obtain ⟨hsends, ⟨v, htold, rfl⟩ | ⟨htold, cause, rfl⟩⟩ :=
    Gateway.ask_spec (followsRedirects_ofConfig office media e) hask
  · refine ⟨hsends, ?_⟩
    -- the condition is about the one document that was told
    have hall : (∀ v', (e.gateway (.ofConfig office media)).told? log = some v' → e.Suits v') ↔
        e.Suits v :=
      ⟨fun h => h v htold, fun h v' hv' => Option.some.inj (htold.symm.trans hv') ▸ h⟩
    rw [hall, suits_iff e (Gateway.legible_of_told htold)]
    change e.Kept ((e.make v).mapError .unusable) ↔ _
    cases e.make v with
    | error f =>
        constructor
        · rintro (⟨_, h, -⟩ | ⟨_, _, h⟩) <;> cases h
        · rintro ⟨_, h, -⟩
          cases h
    | ok x =>
        constructor
        · rintro (⟨_, ⟨⟩, h⟩ | ⟨_, _, h⟩)
          · exact ⟨x, rfl, h⟩
          · cases h
        · rintro ⟨_, ⟨⟩, h⟩
          exact .inl ⟨x, rfl, h⟩
  -- no document was told: the errand ends exhausted, as it may
  · refine ⟨hsends, iff_of_true (.inr ⟨request, cause, rfl⟩) fun v hv => ?_⟩
    rw [htold] at hv
    cases hv

/-- A web that answers every request with a list of one text. -/
def greeter : (op : Http.Op) → Unit → op.Reply × Unit
  | .send _, s => (.ok { status := 200, content := "[\"oi\"]" }, s)
  | .sleep _, s => ((), s)

/-- A reader of media on that web. -/
def greeted : Fields := [("base_url", .text "http://media.test"), ("api_key", .text "k")]

/-- What it makes of a recording is told by a list, and the promise is broken. -/
theorem promise_kept_iff_greeted : ¬ (transcribe "a.ogg" "whisper").Kept
    (((transcribe "a.ogg" "whisper").run (.ofConfig [] greeted) ⟨⟨2024, 1, 1⟩, 0, some 0⟩).play
      greeter ()).1 := by
  have htold : (((transcribe "a.ogg" "whisper").gateway (.ofConfig [] greeted)).told?
      (((transcribe "a.ogg" "whisper").run (.ofConfig [] greeted)
        ⟨⟨2024, 1, 1⟩, 0, some 0⟩).transcript greeter ())).any
      (·.asObject?.isNone) = true := by decide +kernel
  obtain ⟨v, hv, hlist⟩ := Option.any_eq_true _ _ |>.mp htold
  rw [(promise_kept_iff [] greeted _ (transcribe "a.ogg" "whisper") greeter ()).2]
  intro h
  obtain ⟨fields, rfl, -⟩ := h v hv
  cases hlist

end Errand
end Parley
