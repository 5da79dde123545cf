import Parley.Proofs.Media.Readers
import Parley.Proofs.Step.Welcome
import Parley.Proofs.Value.Entries

/-!
# Which variables a welcoming assistant writes

A welcoming assistant writes variables of its own (`welcomeNames`), and whatever values media name
when they read a proof of payment.  It asks for the fields of the node, but does not look at what it
is answered: another name is written exactly when the answer names it (`written_iff_extracted`).

So it depends on the reader of media which variables those are.  Canned readings name nothing but
what is asked for.  A service of the web names what it likes, a variable of the session among them.
-/

namespace Parley.Step

open Program (Exchange Comes)

variable {s : Setting} {n : Flow.Node} {id : String} {d : Flow.Welcome} {vars : Fields}
  {a name : String} {kind : Media.Kind} {log : List (Exchange Op Op.Reply)}

/-- The variables of a welcoming assistant itself. -/
def welcomeNames : List String :=
  ["handoff_target", "handoff_reason", "sector_ai_id", "sector_ai_name", "original_message",
    "welcome_ai_response", "media_type", "audio_transcription", "image_description",
    "document_content"]

/-! ### Names of what is read -/

/-- A reading gives the name to a value. -/
def Names (v : Value) (name : String) : Prop :=
  ∃ found given, namedValues? v = some found ∧ (.text name, given) ∈ found

/-- Media read a proof of payment, of which fields are asked for, and give the name to a value. -/
inductive Extracts (wanted : List String) (name : String) : Exchange Op Op.Reply → Prop where
  | intro {payload provider summary : String} {bound : Option Binary64} {v : Value}
      (hj : v.json .spaced = .ok summary)
      (hv : Names v name) :
      Extracts wanted name ⟨.consult (.extractFields payload provider wanted) bound,
        (.ok v : Except Fault Value)⟩

/-- Named values make variables of their names. -/
theorem mem_names_variablesOf {found : Named} {read : Fields} (h : variablesOf found = .ok read) :
    name ∈ read.names ↔ ∃ given, (.text name, given) ∈ found := by
  obtain ⟨pairs, hpairs, hread⟩ := bind_eq_ok.mp h
  cases hread
  have hpairNames : name ∈ Entries.names pairs ↔ ∃ given, (.text name, given) ∈ found := by
    clear h
    induction found generalizing pairs with
    | nil =>
        cases hpairs
        simp [Entries.names]
    | cons e rest ih =>
        rw [List.mapM_cons] at hpairs
        obtain ⟨pair, hpair, hpairs⟩ := bind_eq_ok.mp hpairs
        obtain ⟨others, hothers, hpairs⟩ := bind_eq_ok.mp hpairs
        cases hpairs
        obtain ⟨first, given⟩ := e
        dsimp only at hpair
        split at hpair
        · next t =>
          cases hpair
          have hnames : Entries.names ((t, given) :: others) = t :: Entries.names others := rfl
          rw [hnames, List.mem_cons, ih others hothers]
          simp [exists_or]
        · cases hpair
  exact Entries.mem_names_update.trans (by simpa [Entries.names] using hpairNames)

/-- What is named by what was heard, but for the variables of the assistant itself, is what media
named. -/
theorem Heard.named_iff {reading : Value} {found : Named} (h : Heard s d a kind log reading found)
    (hname : name ∉ welcomeNames) :
    (∃ given, (.text name, given) ∈ found) ↔ ∃ x ∈ log, Extracts d.paymentProofFields name x := by
  -- a reading that fails tells no names, and a name the node itself writes is ruled out
  have hnone {x : Exchange Op Op.Reply} (hx : ¬ Extracts d.paymentProofFields name x) :
      (∃ given : Value, (.text name, given) ∈ ([] : Named)) ↔
        ∃ y ∈ [x], Extracts d.paymentProofFields name y := by
    simp [hx]
  have hother {own : String} {v : Value} (hown : own ∈ welcomeNames) :
      ¬ ∃ given, ((.text name, given) : Value × Value) ∈ [(.text own, v)] := by
    rintro ⟨given, he⟩
    cases List.mem_singleton.mp he
    exact hname hown
  cases h with
  | unasked => simp
  | failed hx =>
      refine hnone fun he => ?_
      cases hx <;> cases he
  | illegible hx hr =>
      refine hnone fun he => ?_
      cases hx with
      | paymentProof =>
          cases he with
          | intro hj hv =>
              obtain ⟨found, given, hv, -⟩ := hv
              rw [readAs, hj, hv] at hr
              cases hr
      | _ => cases he
  | told hx hr =>
      simp only [List.mem_singleton, exists_eq_left]
      cases hx with
      | paymentProof =>
          obtain ⟨summary, hj, hr⟩ := bind_eq_ok.mp hr
          split at hr
          · next named hv =>
            cases hr
            constructor
            · rintro ⟨given, he⟩
              exact .intro hj ⟨_, given, hv, he⟩
            · rintro ⟨-, found, given, hv', he⟩
              exact ⟨given, Option.some.inj (hv'.symm.trans hv) ▸ he⟩
          · cases hr
      | audio =>
          cases hr
          refine iff_of_false (hother (by decide)) fun he => ?_
          cases he
      | image | document =>
          obtain ⟨shown, -, hr⟩ := bind_eq_ok.mp hr
          cases hr
          refine iff_of_false (hother (by decide)) fun he => ?_
          cases he

/-! ### The exits -/

/-- The model is asked for an answer, and nothing else. -/
theorem asksModel_asks {heard : String} :
    Program.AsksOnly (fun op => ∃ system user tools model temperature maxTokens bound,
      op = .consult (.complete system user tools model temperature maxTokens) bound)
        (asksModel s d vars heard).run :=
  asksOnly_bind asksOnly_needs fun _ => asksOnly_lift_bind fun _ _ => asksOnly_lift_bind fun _ _ =>
    ⟨⟨_, _, _, _, _, _, _, rfl⟩, fun _ => trivial⟩

theorem not_extracts_of_replyOr {heard reply : String}
    (h : Reaches (replyOr (asksModel s d vars heard)) log reply) :
    ∀ x ∈ log, ∀ name, ¬ Extracts d.paymentProofFields name x := by
  rintro x hx name ⟨⟩
  obtain ⟨_, _, _, _, _, _, _, hop⟩ := (asksOnly_tryCatch_pure asksModel_asks).of_mem h _ hx
  cases hop

/-- An answer of the assistant itself. -/
theorem answersItself_writes {heard : String} {found : Named} {e : Effect}
    (h : Reaches (answersItself s id vars d kind heard found) log e) :
    (∀ x ∈ log, ∀ name, ¬ Extracts d.paymentProofFields name x) ∧
      ∃ read reply, variablesOf found = .ok read ∧
      e.changes = read.update [("welcome_ai_response", .text reply),
        ("original_message", .text heard), ("media_type", .text kind.name)] := by
  obtain ⟨log₁, log₂, reply, rfl, hreply, h⟩ := reaches_bind.mp h
  have hquiet : log₂ = [] → ∀ x ∈ log₁ ++ log₂, ∀ name, ¬ Extracts d.paymentProofFields name x := by
    rintro rfl
    rw [List.append_nil]
    exact not_extracts_of_replyOr hreply
  dsimp only at h
  split at h
  all_goals
    obtain ⟨said, -, h⟩ := reaches_lift_bind.mp h
    obtain ⟨read, hread, h⟩ := reaches_lift_bind.mp h
    obtain ⟨next, -, h⟩ := reaches_lift_bind.mp h
    obtain ⟨hlog, rfl⟩ := reaches_pure.mp h
    exact ⟨hquiet hlog, read, reply, hread, rfl⟩

/-- **However a message is left**, the step writes what was heard and variables of its own, and
media are asked for what is heard only. -/
theorem runWelcome_writes {e : Effect} (h : Reaches (runWelcome s id vars d (some a)) log e) :
    ∃ log₁ log₂ reading found read own, log = log₁ ++ log₂ ∧
      Heard s d a (.detect a) log₁ reading found ∧
      (∀ x ∈ log₂, ∀ name, ¬ Extracts d.paymentProofFields name x) ∧ variablesOf found = .ok read ∧
      e.changes = read.update own ∧ ∀ name ∈ own.names, name ∈ welcomeNames := by
  obtain ⟨log₁, log₂, ⟨reading, found⟩, rfl, hread, h⟩ := reaches_bind.mp h
  obtain ⟨_, _, heq, hheard⟩ := readMediaOr_comes hread
  cases heq
  obtain ⟨heard, -, h⟩ := reaches_lift_bind.mp h
  dsimp only at h
  split at h
  · obtain ⟨rfl, he⟩ := Program.comes_done_iff.mp h
    obtain ⟨said, -, he⟩ := bind_eq_ok.mp he.symm
    obtain ⟨read, hfound, he⟩ := bind_eq_ok.mp he
    cases he
    exact ⟨log₁, [], reading, found, read, _, rfl, hheard, List.forall_mem_nil _, hfound, rfl,
      (by decide : ∀ name ∈ ["handoff_target", "handoff_reason"], name ∈ welcomeNames)⟩
  · split at h
    · next sector _ =>
      obtain ⟨rfl, he⟩ := Program.comes_done_iff.mp h
      obtain ⟨read, hfound, he⟩ := bind_eq_ok.mp he.symm
      obtain ⟨course, -, he⟩ := bind_eq_ok.mp he
      cases he
      exact ⟨log₁, [], reading, found, read, _, rfl, hheard, List.forall_mem_nil _, hfound, rfl,
        (by decide : ∀ name ∈ ["sector_ai_id", "sector_ai_name", "original_message"],
          name ∈ welcomeNames)⟩
    · obtain ⟨hquiet, read, reply, hfound, he⟩ := answersItself_writes h
      exact ⟨log₁, log₂, reading, found, read, _, rfl, hheard, hquiet, hfound, he,
        (by decide : ∀ name ∈ ["welcome_ai_response", "original_message", "media_type"],
          name ∈ welcomeNames)⟩

/-! ### Steps -/

/-- What media read of a proof of payment, if they do in the exchange, is a reading of this kind. -/
def ReadBy (reads : String → String → List String → Value → Prop) (x : Exchange Op Op.Reply) :
    Prop :=
  ∀ payload provider wanted bound v,
    x = ⟨.consult (.extractFields payload provider wanted) bound, (.ok v : Except Fault Value)⟩ →
      reads payload provider wanted v

/-- Canned readings give the name of a field that is asked for. -/
theorem mem_of_canned {c : Media.Canned} {wanted : List String} (hw : wanted ≠ [])
    {x : Exchange Op Op.Reply} (hc : ReadBy (fun _ _ wanted v => c.extract wanted = .ok v) x)
    (h : Extracts wanted name x) : name ∈ wanted := by
  cases h with
  | intro hj hv =>
      obtain ⟨found, given, hv, he⟩ := hv
      obtain ⟨all, -, rfl⟩ := (Media.Canned.extract_eq_ok hw).mp (hc _ _ _ _ _ rfl)
      cases hv
      simp only [List.mem_map, List.mem_filter, List.contains_iff_mem] at he
      obtain ⟨⟨key, value⟩, ⟨-, hkey⟩, hpair⟩ := he
      cases hpair
      exact hkey

/-- **A welcoming assistant writes the variables that media name.**  A variable that is not its own
is written exactly when the reading of a proof of payment names it, whether the node asks for it or
not.  With canned readings that are fields that the node asks for, when it asks for any; with a
service of the web they are what the service answered. -/
theorem written_iff_extracted {session : Session} {answer : Option String} {e : Effect}
    (hn : n.block = .welcome d) (h : (run s n session answer).Comes log (.done e)) :
    (∀ name ∉ welcomeNames, name ∈ e.changes.names ↔ ∃ x ∈ log,
      Extracts d.paymentProofFields name x) ∧
    (d.paymentProofFields ≠ [] → ∀ c : Media.Canned,
      (∀ x ∈ log, ReadBy (fun _ _ wanted v => c.extract wanted = .ok v) x) →
        ∀ name ∈ e.changes.names, name ∈ d.paymentProofFields ∨ name ∈ welcomeNames) ∧
    ∀ (m : Media.Remote) (web : Exchange Op Op.Reply → Http.Log),
      (∀ x ∈ log, ReadBy (fun payload provider wanted v =>
        (m.extractFields payload provider wanted).Comes (web x) (.ok v)) x) →
        ∀ name ∈ e.changes.names, name ∈ welcomeNames ∨
          ∃ x ∈ log, ∃ r a v, ⟨.send r, (.ok a : Except (Http.Trouble × String) Http.Response)⟩ ∈
            web x ∧ m.Holds a v ∧ Names v name := by
  have hwritten : ∀ name ∉ welcomeNames, name ∈ e.changes.names ↔
      ∃ x ∈ log, Extracts d.paymentProofFields name x := by
    intro name hname
    have heffect := run_reaches h
    unfold effectOf at heffect
    rw [hn] at heffect
    cases hgiven : givenAnswer answer with
    | none =>
        rw [hgiven] at heffect
        obtain ⟨said, -, h⟩ := reaches_lift_bind.mp heffect
        obtain ⟨rfl, rfl⟩ := reaches_pure.mp h
        simp [Entries.names]
    | some a =>
        rw [hgiven] at heffect
        obtain ⟨log₁, log₂, reading, found, read, own, rfl, hheard, hquiet, hread,
            hchanges, hown⟩ :=
          runWelcome_writes heffect
        rw [hchanges, Entries.mem_names_update, or_iff_left fun hmem => hname (hown name hmem),
          mem_names_variablesOf hread, hheard.named_iff hname]
        refine ⟨fun ⟨x, hx, he⟩ => ⟨x, List.mem_append_left _ hx, he⟩, fun ⟨x, hx, he⟩ =>
          ⟨x, ?_, he⟩⟩
        exact (List.mem_append.mp hx).resolve_right fun hmem => hquiet x hmem name he
  -- which names the fields may have depends on who tells them
  refine ⟨hwritten, fun hw c hc name hname => ?_, fun m web hm name hname => ?_⟩
  · by_contra hno
    obtain ⟨hwanted, hown⟩ := not_or.mp hno
    obtain ⟨x, hx, hextracts⟩ := (hwritten name hown).mp hname
    exact hwanted (mem_of_canned hw (hc x hx) hextracts)
  · by_cases hown : name ∈ welcomeNames
    · exact .inl hown
    · obtain ⟨x, hx, hextracts⟩ := (hwritten name hown).mp hname
      have hreadBy := hm x hx
      cases hextracts with
      | intro hj hv =>
          obtain ⟨r, a, hmem, hholds⟩ := Media.Remote.extractFields_comes (hreadBy _ _ _ _ _ rfl)
          exact .inr ⟨_, hx, r, a, _, hmem, hholds, hv⟩

/-- An assistant that reads the value off proofs of payment. -/
def cashierData : Flow.Welcome :=
  { fallbackMessage := "One moment.", capabilities := { handlePaymentProof := true },
    paymentProofFields := ["valor"] }

@[inherit_doc cashierData] def cashier :
    Flow.Node := { id := "cashier", block := .welcome cashierData }

/-- A flow with a cashier. -/
def shop : Setting :=
  ⟨{ id := "shop", nodes := [{ id := "start", block := .start {} }, cashier]
     edges := [{ source := "start", target := "cashier" }] }, {}, { media := true }⟩

/-- A service that reads proofs of payment. -/
def scanner :
    Media.Remote := .ofConfig [("base_url", .text "https://media.test"), ("api_key", .text "k")]

/-- It answers with the field that is asked for, and with a contact. -/
def scans : (op : Http.Op) → Unit → op.Reply × Unit
  | .send _, s =>
    (.ok { status := 200, content :=
      "\x7b\"fields\": \x7b\"valor\": \"10\", \"contact_id\": \"c_999\"\x7d\x7d" }, s)
  | .sleep _, s => ((), s)

/-- A team that reads proofs of payment by the service, and answers nothing else. -/
def shopTeam : (op : Op) → Unit → op.Reply × Unit
  | .consult (.extractFields payload provider wanted) _, s =>
    (((scanner.extractFields payload provider wanted).play scans ()).1.mapError fun _ =>
      .timedOut, s)
  | .consult _ _, s => (.error .timedOut, s)
  | .sleep _, s => ((), s)

/-- The requests of the service for an exchange with the team. -/
def scanned : Exchange Op Op.Reply → Http.Log
  | ⟨.consult (.extractFields payload provider wanted) _, _⟩ =>
    (scanner.extractFields payload provider wanted).transcript scans ()
  | _ => []

/-- The names that an outcome writes. -/
def Outcome.writes : Outcome → List String
  | .done e => e.changes.names
  | _ => []

/-- The variable `contact_id` is written, which the node does not ask for: the service named it. -/
theorem written_iff_extracted_cashier : ∃ log e,
    (cashier.block = .welcome cashierData ∧
      (run shop cashier visitor (some "[COMPROVANTE] 1")).Comes log (.done e) ∧
      ∀ x ∈ log, ReadBy (fun payload provider wanted v =>
        (scanner.extractFields payload provider wanted).Comes (scanned x) (.ok v)) x) ∧
    "contact_id" ∈ e.changes.names ∧ "contact_id" ∉ cashierData.paymentProofFields ∧
      "contact_id" ∉ welcomeNames ∧
    (∃ x ∈ log, Extracts cashierData.paymentProofFields "contact_id" x) ∧
    ∃ x ∈ log, ∃ r a v, ⟨.send r, (.ok a : Except (Http.Trouble × String) Http.Response)⟩ ∈
      scanned x ∧ scanner.Holds a v ∧ Names v "contact_id" := by
  have hcomes := Program.comes_play shopTeam (run shop cashier visitor (some "[COMPROVANTE] 1")) ()
  have hwrites : ((run shop cashier visitor (some "[COMPROVANTE] 1")).play shopTeam ()).1.writes =
      ["valor", "contact_id", "welcome_ai_response", "original_message", "media_type"] := by
        decide +kernel
  obtain ⟨e, he⟩ : ∃ e, ((run shop cashier visitor (some "[COMPROVANTE] 1")).play shopTeam ()).1 =
      .done e := by
    cases h : ((run shop cashier visitor (some "[COMPROVANTE] 1")).play shopTeam ()).1 with
    | done e => exact ⟨e, rfl⟩
    | failed error =>
        rw [h] at hwrites
        cases hwrites
  rw [he] at hcomes hwrites
  have hmem : "contact_id" ∈ e.changes.names := by
    rw [show e.changes.names = _ from hwrites]
    decide
  -- the reply of the team is what the scanner comes to over the web
  have hreadBy : ∀ x ∈ (run shop cashier visitor (some "[COMPROVANTE] 1")).transcript shopTeam (),
      ReadBy (fun payload provider wanted v =>
        (scanner.extractFields payload provider wanted).Comes (scanned x) (.ok v)) x := by
    rintro x hx payload provider wanted bound v rfl
    obtain ⟨⟨⟩, hreply⟩ := Program.reply_of_mem_transcript hx
    have hread := Program.comes_play scans (scanner.extractFields payload provider wanted) ()
    have hteam : (shopTeam (.consult (.extractFields payload provider wanted) bound) ()).1 =
      ((scanner.extractFields payload provider wanted).play scans ()).1.mapError fun _ =>
        Fault.timedOut := rfl
    replace hreply := hreply.trans hteam
    cases hplay : ((scanner.extractFields payload provider wanted).play scans ()).1 with
    | error f =>
        rw [hplay] at hreply
        cases hreply
    | ok v' =>
        rw [hplay] at hreply hread
        cases hreply
        exact hread
  have hown : "contact_id" ∉ welcomeNames := by decide
  obtain ⟨hwritten, -, hremote⟩ := written_iff_extracted rfl hcomes
  exact ⟨_, e, ⟨rfl, hcomes, hreadBy⟩, hmem, by decide, hown, (hwritten _ hown).mp hmem,
    (hremote scanner scanned hreadBy _ hmem).resolve_left hown⟩

end Parley.Step
