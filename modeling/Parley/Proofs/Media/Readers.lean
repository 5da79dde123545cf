import Parley.Gateway
import Parley.Media.Remote
import Parley.Proofs.Http.Attempts
import Parley.Proofs.Json.Reading

/-!
# What readers of media pass on of a proof of payment

Canned readings give those of their fields that are asked for (`Canned.extract_eq_ok`).  A service
of the web is told which fields are asked for, and what it answers is passed on as it is: the
reading is the entry `fields` of the document that it answered with (`Remote.extractFields_comes`).
-/

namespace Parley

namespace Http.Client

open Program (Comes)

/-- What a client is told by an answer is a reply to a request of its own. -/
theorem mem_of_follow {c : Client} {a : Response} (left : Nat) {r : Request} {web : Log}
    (h : (follow c left r).Comes web (.ok a)) :
    ∃ r', (⟨.send r', (.ok a : Except (Trouble × String) Response)⟩ :
      Program.Exchange Op Op.Reply) ∈ web := by
  unfold follow at h
  obtain ⟨reply, rest, rfl, hrest⟩ := Program.comes_request_iff.mp h
  change Except (Trouble × String) Response at reply
  dsimp only [Program.bind] at hrest
  split at hrest
  · cases (Program.comes_done_iff.mp hrest).2
  · next a' hsettle =>
    cases (Program.comes_done_iff.mp hrest).2
    cases reply with
    | error trouble => cases hsettle
    | ok told =>
        -- what comes back is the last response that was told
        have htold : told = a := by
          unfold settle at hsettle
          dsimp only at hsettle
          split at hsettle
          · cases hsettle
            rfl
          · next location _ =>
            cases hnext : requestAfter r told.status location with
            | error e =>
                rw [hnext] at hsettle
                cases hsettle
            | ok next =>
                rw [hnext] at hsettle
                cases hf : c.followsRedirects <;> rw [hf] at hsettle <;> cases hsettle
                rfl
        exact ⟨r, htold ▸ List.mem_cons_self⟩
  · next next _ =>
    cases left with
    | zero => cases (Program.comes_done_iff.mp hrest).2
    | succ left =>
        obtain ⟨r', hr'⟩ := mem_of_follow left hrest
        exact ⟨r', List.mem_cons_of_mem _ hr'⟩

end Http.Client

namespace Gateway

/-- **A document of a gateway** is read off an answer that reports success. -/
theorem ask_comes {g : Gateway} {request method : String} {address : Except Fault String}
    {params : Option (Entries String)} {body : Http.Body} {web : Http.Log} {document : Value}
    (h : (g.ask request method address params body).Comes web (.ok document)) :
    ∃ r a, (⟨.send r, (.ok a : Except (Http.Trouble × String) Http.Response)⟩ :
      Program.Exchange Http.Op Http.Op.Reply) ∈ web ∧ g.read a = .ok document := by
  obtain ⟨web₁, web₂, outcome, rfl, hrun, h⟩ := Program.comes_bind_iff.mp h
  obtain ⟨rfl, houtcome⟩ := Program.comes_done_iff.mp h
  rw [List.append_nil]
  cases outcome with
  | error e => cases houtcome
  | ok found =>
      cases houtcome
      obtain ⟨os, htries, hos⟩ := Http.Patience.persist_comes hrun
      obtain ⟨part, hpart, hsub⟩ := htries.part_of_mem _ (List.mem_of_getLast? hos.last)
      cases address with
      | error e => cases (Program.comes_done_iff.mp hpart).2
      | ok address =>
          obtain ⟨part₁, part₂, answer, rfl, hsend, hread⟩ := Program.comes_bind_iff.mp hpart
          have hread := (Program.comes_done_iff.mp hread).2
          cases answer with
          | error e => cases hread
          | ok a =>
              unfold Http.Client.send at hsend
              split at hsend
              · cases (Program.comes_done_iff.mp hsend).2
              · obtain ⟨r, hr⟩ := Http.Client.mem_of_follow _ hsend
                exact ⟨r, a, hsub (List.mem_append_left _ hr), hread.symm⟩

end Gateway

namespace Media

/-- Canned readings give the fields that are asked for. -/
theorem Canned.extract_eq_ok {c : Canned} {wanted : List String} (hw : wanted ≠ []) {v : Value} :
    c.extract wanted = .ok v ↔ ∃ all, c.fields = .object all ∧
      v = .object (all.filter (wanted.contains ·.1)) := by
  have hempty : wanted.isEmpty = false := by simpa using hw
  unfold Canned.extract
  simp only [hempty, Bool.false_or]
  split
  · next all hall =>
    rw [hall]
    constructor
    · rintro ⟨⟩
      exact ⟨all, rfl, rfl⟩
    · rintro ⟨_, ⟨⟩, rfl⟩
      rfl
  · next hno => exact ⟨nofun, fun ⟨all, hall, _⟩ => absurd hall (hno all)⟩

/-- An answer of the service holds the reading of a proof of payment: it is the entry `fields` of
the document, and no fields when the document lacks the entry. -/
def Remote.Holds (m : Remote) (a : Http.Response) (v : Value) : Prop :=
  ∃ entries : Fields, m.gateway.read a = .ok (.object entries) ∧
    v = (entries.get? "fields").getD (.object [])

/-- **A service of the web** is passed on as it is: the reading of a proof of payment is what an
answer holds. -/
theorem Remote.extractFields_comes {m : Remote} {payload provider : String} {wanted : List String}
    {web : Http.Log} {v : Value} (h : (m.extractFields payload provider wanted).Comes web (.ok v)) :
    ∃ r a, (⟨.send r, (.ok a : Except (Http.Trouble × String) Http.Response)⟩ :
      Program.Exchange Http.Op Http.Op.Reply) ∈ web ∧ m.Holds a v := by
  obtain ⟨web₁, web₂, answer, rfl, hask, h⟩ := Program.comes_bind_iff.mp h
  obtain ⟨rfl, hanswer⟩ := Program.comes_done_iff.mp h
  rw [List.append_nil]
  obtain ⟨document, rfl, hread⟩ := Json.bind_eq_ok.mp hanswer.symm
  obtain ⟨r, a, hmem, hdocument⟩ := Gateway.ask_comes hask
  cases document with
  | object entries =>
      cases hread
      exact ⟨r, a, hmem, entries, hdocument, rfl⟩
  | _ => cases hread

end Media
end Parley
