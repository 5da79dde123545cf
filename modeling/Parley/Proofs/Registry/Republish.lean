import Parley.Proofs.Flow.Tidy
import Parley.Proofs.Registry.Books
import Parley.Service.Answer

/-!
# Flows that are fetched and published again

A flow all of whose numbers are finite and whose loose values do not nest too deep is written as it
is (`Flow.dump_of_isFinite`).  The document of a flow that was read is a flow again, the same one,
and the text of the document is read as the document (`published_round_trip`).  So a published flow
that is fetched and published again is the flow that is published already, and the books say what
they said before.

A flow may be published that cannot be fetched: its loose values nest too deep
(`published_and_not_shown`).
-/

namespace Parley

/-! ### What is written of a flow -/

namespace Flow

theorem dumpedFields_eq_self {fs : Fields} (h : ∀ v ∈ fs.map (·.2), v.isFinite = true) :
    Value.dumpedFields fs = fs :=
  Value.object.inj (Value.dumped_of_isFinite (Value.isFinite_object_iff.mpr fun _ he =>
    h _ (List.mem_map_of_mem he)))

theorem RequestBody.isFinite_of_mem_loose {body : RequestBody} (h : body.toValue.isFinite = true)
    {v : Value} (hv : v ∈ body.loose) : v.isFinite = true := by
  cases body with
  | text s => cases hv
  | fields fs =>
      obtain ⟨e, he, rfl⟩ := List.mem_map.mp hv
      exact Value.isFinite_object_iff.mp h e he

theorem RequestBody.dumped_of_isFinite {body : RequestBody}
    (h : ∀ v ∈ body.loose, v.isFinite = true) :
    body.dumped = body := by
  cases body with
  | text s => rfl
  | fields fs => exact congrArg RequestBody.fields (dumpedFields_eq_self h)

/-- The loose values of a block are parts of its data. -/
theorem Block.isFinite_of_mem_loose {b : Block} (h : b.data.isFinite = true) {v : Value}
    (hv : v ∈ b.loose) :
    v.isFinite = true := by
  cases b with
  | condition d =>
      obtain ⟨r, hr, rfl⟩ := List.mem_map.mp hv
      have hrules := Value.isFinite_object_iff.mp h
        ("conditions", .list (d.conditions.map ruleToValue)) (by simp)
      have hrule := Value.isFinite_list_iff.mp hrules _ (List.mem_map_of_mem hr)
      exact Value.isFinite_object_iff.mp hrule ("value", r.value) (by simp)
  | webhook d =>
      have hbody := Value.isFinite_object_iff.mp h
        ("body", .ofOption RequestBody.toValue d.body) (by simp)
      rw [Block.loose] at hv
      cases hsome : d.body with
      | none =>
          rw [hsome] at hv
          cases hv
      | some body =>
          rw [hsome] at hv hbody
          exact RequestBody.isFinite_of_mem_loose hbody hv
  | unknown kind data =>
      obtain ⟨e, he, rfl⟩ := List.mem_map.mp hv
      exact Value.isFinite_object_iff.mp h e he
  | _ => cases hv

/-- The loose values of a flow are parts of its document. -/
theorem isFinite_of_mem_loose {f : Flow} (h : f.toValue.isFinite = true) {v : Value}
    (hv : v ∈ f.loose) :
    v.isFinite = true := by
  have hfields := Value.isFinite_object_iff.mp h
  rcases List.mem_append.mp hv with hv | hv
  · obtain ⟨n, hn, hv⟩ := List.mem_flatMap.mp hv
    have hnodes := hfields ("nodes", .list (f.nodes.map Node.toValue)) (by simp)
    have hnode := Value.isFinite_list_iff.mp hnodes _ (List.mem_map_of_mem hn)
    exact Block.isFinite_of_mem_loose
      (Value.isFinite_object_iff.mp hnode ("data", n.block.data) (by simp)) hv
  · obtain ⟨d, hd, rfl⟩ := List.mem_map.mp hv
    have hvars := hfields ("variables", .list (f.declarations.map Declaration.toValue)) (by simp)
    have hvar := Value.isFinite_list_iff.mp hvars _ (List.mem_map_of_mem hd)
    exact Value.isFinite_object_iff.mp hvar ("defaultValue", d.defaultValue) (by simp)

/-- A block whose loose values have finite numbers only is as a dump has it. -/
theorem Block.dumped_of_isFinite {b : Block} (h : ∀ v ∈ b.loose, v.isFinite = true) :
    b.dumped = b := by
  cases b with
  | condition d =>
      have hrule (r : Condition.Rule) (hr : r ∈ d.conditions) :
          { r with value := r.value.dumped } = r := by
        rw [Value.dumped_of_isFinite (h r.value (List.mem_map_of_mem hr))]
      rw [Block.dumped, List.map_congr_left hrule, List.map_id']
  | webhook d =>
      rw [Block.loose] at h
      rw [Block.dumped]
      cases hsome : d.body with
      | none => rw [Option.map_none, ← hsome]
      | some body =>
          rw [hsome] at h
          rw [Option.map_some, RequestBody.dumped_of_isFinite h, ← hsome]
  | unknown kind data => rw [Block.dumped, dumpedFields_eq_self h]
  | _ => rfl

/-- A flow whose loose values have finite numbers only is as a dump has it. -/
theorem dumped_of_isFinite {f : Flow} (h : ∀ v ∈ f.loose, v.isFinite = true) : f.dumped = f := by
  have hnode (n : Node) (hn : n ∈ f.nodes) : { n with block := n.block.dumped } = n := by
    rw [Block.dumped_of_isFinite fun v hv =>
      h v (List.mem_append_left _ (List.mem_flatMap.mpr ⟨n, hn, hv⟩))]
  have hvar (d : Declaration) (hd : d ∈ f.declarations) :
      { d with defaultValue := d.defaultValue.dumped } = d := by
    rw [Value.dumped_of_isFinite (h _ (List.mem_append_right _ (List.mem_map_of_mem hd)))]
  rw [dumped, List.map_congr_left hnode, List.map_congr_left hvar, List.map_id', List.map_id']

/-- **A flow whose numbers are all finite** is written as it is, unless a value in it nests too
deep. -/
theorem dump_of_isFinite {f : Flow} (h : f.toValue.isFinite = true) :
    f.dump = if f.fits then .ok f.toValue else .error .tooDeep := by
  rw [dump, Value.written, dumped_of_isFinite fun v => isFinite_of_mem_loose h]

end Flow

namespace Registry

variable {r : Registry} {raw : Value} {f : Flow}

theorem ofValue_of_parse (h : parse raw = .ok f) : Flow.ofValue raw = .ok f := by
  unfold parse at h
  split at h
  · next hread => exact hread.trans (congrArg _ (Except.ok.inj h))
  · cases h
  · cases h

theorem parse_of_ofValue (h : Flow.ofValue raw = .ok f) : parse raw = .ok f := by
  rw [parse, h]

/-- What is published already is found as before when it is published again. -/
theorem Sound.republish (h : r.Sound) (hf : r.get? f.id = some f) :
    f.defects = [] ∧ (r.publish f).flows = r.flows ∧
      ∀ id v, (r.publish f).version? id v = r.version? id v := by
  have hversion := (h.current hf).2
  obtain ⟨-, -, hd⟩ := h.of_version? hversion
  refine ⟨hd, Entries.put_eq_self hf, fun id v => ?_⟩
  rw [version?_publish]
  split
  · next hkey =>
    obtain ⟨rfl, rfl⟩ := Prod.mk.inj hkey
    exact hversion.symm
  · rfl

theorem register_object {fields : Fields} (h : parse (.object fields) = .ok f)
    (hd : f.defects = []) :
    r.register (.object fields) = .ok (r.publish f, f) := by
  have hregister : r.register (.object fields) =
      (parse (.object fields)).bind fun g => (r.add g).bind fun r' => .ok (r', g) := rfl
  rw [hregister, h, Except.bind, add_eq_ok_iff.mpr ⟨hd, rfl⟩, Except.bind]

/-- **Published flows make the round trip.**  For every document that is read as a flow, whatever
the kinds of its nodes, all of whose numbers are finite and no value in which nests too deep: the
flow's own document is what is written of it; it is read as the same flow, and the text of that
document as the document, when the first one is legible.  Where the flow is published, whatever was
asked of the registry before, the service shows its document; to publish what is shown is granted,
and leaves the published flows and all versions as they are. -/
theorem published_round_trip (h : parse raw = .ok f) (hfinite : f.toValue.isFinite = true)
    (hfits : f.fits = true) :
    f.dump = .ok f.toValue ∧ parse f.toValue = .ok f ∧
      (raw.Legible → ∃ text, f.toValue.json .compact = .ok text ∧ Json.read text = .ok f.toValue) ∧
      ∀ calls, (serveAll {} calls).get? f.id = some f →
        (∃ look, Service.showFlow f.id = .look look ∧
          ∀ w : Service.View, w.registry = serveAll {} calls → look w = .ok ⟨200, f.toValue⟩) ∧
        ∃ change r, Service.publish f.toValue = .change change ∧
          change (serveAll {} calls) = (.ok ⟨201, Service.flowSummary f⟩, r) ∧
          r.flows = (serveAll {} calls).flows ∧
            ∀ id v, r.version? id v = (serveAll {} calls).version? id v := by
  have hread := ofValue_of_parse h
  have hparse : parse f.toValue = .ok f :=
    parse_of_ofValue (Flow.ofValue_of_kept (Flow.kept_of_ofValue hread))
  have hdump : f.dump = .ok f.toValue := (Flow.dump_of_isFinite hfinite).trans (if_pos hfits)
  refine ⟨hdump, hparse, fun hraw => ?_, fun calls hf =>
    ⟨⟨_, rfl, fun w hw => ?_⟩, _, (serveAll {} calls).publish f, rfl, ?_⟩⟩
  · exact (Flow.tidy_of_ofValue hraw hread).legible_toValue.read_json Json.Style.isPlain_compact
  · rw [hw, hf]
    dsimp only
    rw [hdump]
    rfl
  · obtain ⟨_, hb⟩ := becomes_serveAll {} calls
    obtain ⟨hd, hsame⟩ := (hb.sound sound_empty).republish hf
    have hregister : (serveAll {} calls).register f.toValue =
        .ok ((serveAll {} calls).publish f, f) :=
      register_object hparse hd
    rw [hregister]
    exact ⟨rfl, hsame⟩

/-- A document of a flow with a node of an unknown kind, and with a number for a truth value and a
text for a number. -/
def visitDocument : Value :=
  .object [("id", .text "visit"), ("departmentId", .text "d"), ("isActive", .int 0),
    ("nodes", .list [
      .object [("id", .text "start"), ("type", .text "start")],
      .object [("id", .text "ask"), ("type", .text "message"),
        ("data", .object [("media_url", .text "u"), ("buttons",
          .list [.object [("id", .text "b"), ("label", .text "B"), ("note", .null)]])])],
      .object [("id", .text "dance"), ("type", .text "dance"),
        ("data", .object [("steps", .int 3)])]]),
    ("edges", .list [.object [("source", .text "start"), ("target", .text "ask")],
      .object [("source", .text "ask"), ("target", .text "dance"), ("source_handle", .text "b")]]),
    ("version", .text "2")]

/-- The flow of the document. -/
def visitFlow : Flow :=
  { id := "visit"
    departmentId := "d"
    isActive := false
    nodes := [{ id := "start", block := .start {} },
      { id := "ask", block := .message { mediaUrl := "u", buttons := [{ id := "b", label := "B" }] }
        },
      { id := "dance", block := .unknown "dance" [("steps", .int 3)] }]
    edges := [{ source := "start", target := "ask" },
      { source := "ask", target := "dance", sourceHandle := some "b" }]
    version := 2 }

/-- The flow is published, fetched and published again. -/
theorem published_round_trip_visit :
    parse visitDocument = .ok visitFlow ∧ visitDocument.Legible ∧
      visitFlow.dump = .ok visitFlow.toValue ∧ parse visitFlow.toValue = .ok visitFlow ∧
      (∃ text, visitFlow.toValue.json .compact = .ok text ∧
        Json.read text = .ok visitFlow.toValue) ∧
      ∃ change r, Service.publish visitFlow.toValue = .change change ∧
        change (serveAll {} [.register visitDocument]) = (.ok ⟨201, Service.flowSummary visitFlow⟩,
          r) ∧
        r.flows = [("visit", visitFlow)] := by
  have hparse : parse visitDocument = .ok visitFlow := rfl
  have hlegible : visitDocument.Legible := by
    have hzero : Number.isTooLong 0 = false :=
      @Number.isTooLong_eq_false 0 1 (by decide) (by decide)
    have hthree : Number.isTooLong 3 = false :=
      @Number.isTooLong_eq_false 3 1 (by decide) (by decide)
    simp [visitDocument, Value.legible_object, Value.legible_list, Value.legible_text,
      Value.legible_int, Value.legible_null, Entries.names, hzero, hthree]
  have hserve : serveAll {} [.register visitDocument] = publish {} visitFlow := by
    change (serve {} (.register visitDocument)).1 = _
    rw [serve, visitDocument, register_object hparse (by decide +kernel)]
  obtain ⟨hdump, hback, htext, hagain⟩ := published_round_trip hparse (by decide +kernel)
    (by decide +kernel)
  obtain ⟨-, change, r, hchange, hr, hsame, -⟩ :=
    hagain [.register visitDocument] (by rw [hserve]; rfl)
  exact ⟨hparse, hlegible, hdump, hback, htext hlegible, change, r, hchange, hr,
    by rw [hsame, hserve]; rfl⟩

/-- A document of a flow with a variable whose default is lists in lists. -/
def caveDocument (n : Nat) : Value :=
  .object [("id", .text "cave"),
    ("nodes", .list [.object [("id", .text "start"), ("type", .text "start")]]),
    ("variables", .list [.object [("name", .text "way"), ("defaultValue", .nested n)]])]

/-- The flow of the document. -/
def caveFlow (n : Nat) : Flow :=
  { id := "cave", nodes := [{ id := "start", block := .start {} }]
    declarations := [{ name := "way", defaultValue := .nested n }] }

theorem parse_caveDocument (n : Nat) : parse (caveDocument n) = .ok (caveFlow n) := rfl

/-- Lists in lists are written up to the limit. -/
theorem dump_caveFlow (n : Nat) : (caveFlow n).toValue.isFinite = true ∧
    (caveFlow n).dump = if n < Value.depthLimit then .ok (caveFlow n).toValue
      else .error .tooDeep := by
  have hnested := Value.isFinite_nested n
  have hfinite : (caveFlow n).toValue.isFinite = true := by
    simp only [caveFlow, Flow.toValue, Flow.Node.toValue, Flow.Declaration.toValue, Flow.Block.data,
      Flow.captioned, Flow.objectOf, Value.texts, Value.isFinite_object_iff,
      Value.isFinite_list_iff, List.map_cons, List.map_nil, List.forall_mem_cons, List.not_mem_nil,
      false_imp_iff, implies_true, hnested, true_and, and_true]
    decide
  have hfits : (caveFlow n).fits = (Value.nested n).fits := by
    change ((Value.nested n).fits && true) = _
    rw [Bool.and_true]
  refine ⟨hfinite, ?_⟩
  simp only [Flow.dump_of_isFinite hfinite, hfits, Value.fits_nested_iff]

/-- **What is published may not be shown.**  With one list too many in a default value the flow is
read and published, and it cannot be written. -/
theorem published_and_not_shown :
    parse (caveDocument 255) = .ok (caveFlow 255) ∧ (caveFlow 255).toValue.isFinite = true ∧
      (caveFlow 255).dump = .error .tooDeep ∧
      (serveAll {} [.register (caveDocument 255)]).get? "cave" = some (caveFlow 255) ∧
      ∃ look, Service.showFlow "cave" = .look look ∧
        ∀ w : Service.View, w.registry = serveAll {} [.register (caveDocument 255)] →
          look w = .error (.inbox (.unwritable .tooDeep)) := by
  obtain ⟨hfinite, hdump⟩ := dump_caveFlow 255
  have hdump : (caveFlow 255).dump = .error .tooDeep := hdump.trans (if_neg (Nat.lt_irrefl _))
  have hserve : serveAll {} [.register (caveDocument 255)] = publish {} (caveFlow 255) := by
    change (serve {} (.register (caveDocument 255))).1 = _
    rw [serve, caveDocument, register_object (parse_caveDocument 255) rfl]
  have hget : (serveAll {} [.register (caveDocument 255)]).get? "cave" = some (caveFlow 255) := by
    rw [hserve]
    rfl
  refine ⟨parse_caveDocument 255, hfinite, hdump, hget, _, rfl, fun w hw => ?_⟩
  rw [hw, hget]
  dsimp only
  rw [hdump]
  rfl

end Registry
end Parley
