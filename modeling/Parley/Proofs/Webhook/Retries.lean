import Parley.Proofs.Http.Attempts
import Parley.Webhook

/-!
# The attempts of a webhook call

An attempt of a call is a request with those that it is sent on to (`Attempt`).  A call makes
attempts up to the first whose outcome is settled, which is neither trouble of the transport nor a
status from 500 on, and at most so many as it may.  The last outcome is the result of the call: the
answer when it is settled and there is one, and otherwise a failure that names the method and the
address (`call_attempts`).

Requests and attempts are the same in number as long as no answer sends the client on.  A call that
may make one attempt sends two requests when the first answer does (`requests_beyond_attempts`).
-/

namespace Parley.Webhook

open Http (Client Request Response Log)
open Http.Client (Followed Redirects redirectLimit outcome?)
open Http.Patience (Persisted goesOn persist_comes)
open Program (Comes)

variable {bounds : Bounds} {c : Call} {body : Http.Body} {log : Log}
  {r : Except Failure WebhookAnswer}

/-- The client of a call. -/
def Call.client (bounds : Bounds) (c : Call) : Client :=
  { timeout := Webhook.timeout bounds c, followsRedirects := true }

/-- The request of a call. -/
def Call.prepared (bounds : Bounds) (c : Call) (body : Http.Body) : Except Http.Fault Request :=
  (c.client bounds).prepare c.verb c.url none c.headers body

/-- How many attempts a call may make. -/
def Call.allowed (bounds : Bounds) (c : Call) :
    Nat := (max 1 (c.attempts.getD bounds.attempts)).toNat

/-- The outcome does not call for another attempt: it is an answer with a status below 500, or a
fault that is no trouble of the transport. -/
def isSettled : Except Http.Fault Response → Bool
  | .ok a => a.status < 500
  | .error e => !isPassing e

/-- What the last outcome of a call makes its result. -/
def Call.result (c : Call) : Except Http.Fault Response → Except Failure WebhookAnswer
  | .ok a =>
    if a.status < 500 then .ok ⟨a.status, Webhook.content a⟩
      else .error (.unreached c.verb c.url (.status a.status))
  | .error e => .error (.unreached c.verb c.url e)

/-- An attempt: the request, with those that it is sent on to; nothing is sent when it cannot be
prepared. -/
inductive Attempt (prepared : Except Http.Fault Request) :
    Log → Except Http.Fault Response → Prop where
  | unsent {e : Http.Fault} (h : prepared = .error e) : Attempt prepared [] (.error e)
  | sent {request : Request} {log : Log} {o : Except Http.Fault Response}
      (h : prepared = .ok request)
      (hf : Followed redirectLimit request log o) : Attempt prepared log o

theorem attempt_of_comes {o : Except Http.Fault Response}
    (h : ((c.client bounds).send c.verb c.url none c.headers body).Comes log o) :
    Attempt (c.prepared bounds body) log o := by
  unfold Client.send at h
  split at h
  · next e he =>
    obtain ⟨rfl, rfl⟩ := Program.comes_done_iff.mp h
    exact .unsent he
  · next request hr => exact .sent hr (Client.follow_comes rfl _ h)

/-- What goes wrong with an attempt is told by the method and the address when that goes for its
request. -/
theorem Attempt.reported {prepared : Except Http.Fault Request} {e : Http.Fault}
    (h : Attempt prepared log (.error e)) (hp : ∀ e, prepared = .error e → isReported e = true) :
    isReported e = true := by
  generalize ho : (Except.error e : Except Http.Fault Response) = o at h
  cases h with
  | unsent he =>
      cases ho
      exact hp e he
  | sent _ hf => rcases hf.error_cases ho.symm with ⟨t, text, rfl⟩ | ⟨u, rfl⟩ <;> rfl

/-- An outcome is settled when what the call accepts of it is not tried again. -/
theorem goesOn_accept (o : Except Http.Fault Response) :
    (!goesOn isPassing (o.bind accept)) = isSettled o := by
  cases o with
  | error e => rfl
  | ok a =>
      change (!goesOn isPassing (accept a)) = decide (a.status < 500)
      unfold accept
      split
      · next h => simp [goesOn, isPassing, Int.not_lt.mpr h]
      · next h => simp [goesOn, Int.not_le.mp h]

/-- What a call makes of an outcome that it tells by the method and the address. -/
theorem Call.result_eq (c : Call) {o : Except Http.Fault Response}
    (ho : ∀ e, o = .error e → isReported e = true) :
    c.result o = match o.bind accept with
      | .ok a => .ok ⟨a.status, Webhook.content a⟩
      | .error e => .error (c.failure e) := by
  cases o with
  | ok a =>
      dsimp only [Call.result, Except.bind, accept]
      by_cases hstatus : 500 ≤ a.status
      · rw [if_pos hstatus, if_neg (Int.not_lt.mpr hstatus)]
        rfl
      · rw [if_neg hstatus, if_pos (Int.not_le.mp hstatus)]
  | error e =>
      change _ = Except.error (c.failure e)
      rw [Call.failure, if_pos (ho e rfl)]
      rfl

/-- **The attempts of a call.**  A call with an address and a body that can be written, and with a
request that can be prepared but for its address, makes attempts up to the first settled outcome, at
most so many as it may, and one at least.  Its result is what the last outcome makes it.  When no
answer sends the client on, the outcomes are the replies to its requests. -/
theorem call_attempts (hurl : c.url ≠ "") (hb : c.content = .ok body)
    (hp : ∀ e, c.prepared bounds body = .error e → isReported e = true)
    (h : (call bounds c).Comes log r) :
    ∃ os, (patience bounds c).Tries (Attempt (c.prepared bounds body)) 0 os log ∧
      (∀ later, os.length = min (c.allowed bounds) ((os ++ later).findIdx isSettled + 1)) ∧
      (∃ o, os.getLast? = some o ∧ r = c.result o) ∧
      ((∃ request, c.prepared bounds body = .ok request) → (∀ x ∈ log, ¬ Redirects x) →
        log.filterMap outcome? = os) := by
  unfold call at h
  rw [if_neg hurl, hb] at h
  obtain ⟨log₁, log₂, accepted, rfl, hrun, h⟩ := Program.comes_bind_iff.mp h
  obtain ⟨rfl, rfl⟩ := Program.comes_done_iff.mp h
  rw [List.append_nil]
  -- the outcomes as they came, before a fault of the server counts as one
  obtain ⟨_, haccepted, hpersisted⟩ := persist_comes hrun
  obtain ⟨os, hsent, rfl⟩ := haccepted.of_map
  have htries : (patience bounds c).Tries (Attempt (c.prepared bounds body)) 0 os log₁ :=
    hsent.mono fun _ _ => attempt_of_comes
  refine ⟨os, htries, fun later => ?_, ?_, fun ⟨request, hrequest⟩ hstay => ?_⟩
  · have hlength := hpersisted.length_eq (later.map (·.bind accept))
    have hallowed : (patience bounds c).attempts - 1 + 1 = c.allowed bounds := by
      unfold patience Call.allowed
      dsimp only
      omega
    have hsettled : ((fun o => !goesOn isPassing o) ∘ fun o : Except Http.Fault Response =>
        o.bind accept) = isSettled :=
      funext goesOn_accept
    rw [List.length_map, ← List.map_append, List.findIdx_map, hsettled, hallowed] at hlength
    exact hlength
  · have hlast := hpersisted.last
    rw [List.getLast?_map, Option.map_eq_some_iff] at hlast
    obtain ⟨o, ho, rfl⟩ := hlast
    refine ⟨o, ho, (c.result_eq fun e he => ?_).symm⟩
    subst he
    obtain ⟨_, hattempt⟩ := htries.attempt_of_mem _ (List.mem_of_getLast? ho)
    exact hattempt.reported hp
  · refine htries.filterMap_eq hstay (fun log o hstay hattempt => ?_) fun _ => rfl
    cases hattempt with
    | unsent he =>
        rw [hrequest] at he
        cases he
    | sent _ hf => exact hf.outcome hstay

/-- Requests are answered one after the other. -/
def answering : (op : Http.Op) → List Response → op.Reply × List Response
  | .send _, a :: rest => (.ok a, rest)
  | .send _, [] => (.error (.connect, "refused"), [])
  | .sleep _, rest => ((), rest)

/-- A call that may make two attempts. -/
def lookUp : Call := { url := "https://hooks.test/old", attempts := some 2 }

/-- A server that is not available at first. -/
theorem call_attempts_unavailable :
    lookUp.url ≠ "" ∧ lookUp.content = .ok .empty ∧
      (∀ e, lookUp.prepared {} .empty = .error e → isReported e = true) ∧
      ∃ log r, (call {} lookUp).Comes log r ∧ (log.filterMap outcome?).length = 2 ∧
        ∃ os o, (patience {} lookUp).Tries (Attempt (lookUp.prepared {} .empty)) 0 os log ∧
          os.getLast? = some o ∧ r = lookUp.result o := by
  have hb : lookUp.content = .ok .empty := if_pos (by decide +kernel)
  have hp : ∀ e, lookUp.prepared {} .empty = .error e → isReported e = true := by
    intro e he
    obtain ⟨request, hrequest⟩ : ∃ request, lookUp.prepared {} .empty = .ok request := ⟨_, rfl⟩
    rw [hrequest] at he
    cases he
  have hrun := Program.comes_play answering (call {} lookUp) [{ status := 503 }, { status := 200 }]
  obtain ⟨os, htries, -, ⟨o, ho, hr⟩, -⟩ := call_attempts (by decide) hb hp hrun
  exact ⟨by decide, hb, hp, _, _, hrun, by decide +kernel, os, o, htries, ho, hr⟩

/-- An answer that sends to another address. -/
def moved : Response := { status := 302, headers := [("location", "https://hooks.test/new")] }

/-- A call that may make one attempt sends two requests when the first answer sends it on, although
a status of 302 calls for no other attempt. -/
theorem requests_beyond_attempts :
    ¬ ∀ (bounds : Bounds) (c : Call) (log : Log) (r : Except Failure WebhookAnswer), c.url ≠ "" →
      (call bounds c).Comes log r →
        (log.filterMap outcome?).length =
          min (c.allowed bounds) ((log.filterMap outcome?).findIdx isSettled + 1) := by
  intro h
  have hlength := h {} { lookUp with attempts := some 1 } _ _ (by decide)
    (Program.comes_play answering _ [moved, { status := 200 }])
  revert hlength
  decide +kernel

end Parley.Webhook
