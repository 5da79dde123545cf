import Parley.Http.Client
import Parley.Http.Retry
import Parley.Proofs.Requests

/-!
# Runs of attempts

`p.Tries Attempt made os log`: the exchanges `log` are attempts with the outcomes `os`, one after
the other, with the waits of the patience `p` between them, after `made` attempts before.  Every run
of a program that is tried with patience is of this kind (`persist_comes`), and how many attempts it
makes is told by their outcomes (`Persisted.length_eq`).

`Followed left r log o`: the exchanges are the request `r` and those that it is sent on to, at most
`left` of them, and what the client makes of them is `o`.  Every run of a client that follows is of
this kind (`follow_comes`).
-/

namespace Parley.Http

open Program (Comes)

/-- Requests and waits with what was replied to them. -/
abbrev Log := List (Program.Exchange Op Op.Reply)

namespace Patience

variable {ε α β : Type} {p : Patience} {again : ε → Bool} {act : Exchange (Except ε α)}
  {left made : Nat} {log : Log} {r : Except ε α}

/-- Attempts one after the other, with their outcomes and the waits between them. -/
inductive Tries (p : Patience) (Attempt : Log → β → Prop) : Nat → List β → Log → Prop where
  | last {made : Nat} {o : β} {log : Log} (h : Attempt log o) : Tries p Attempt made [o] log
  | more {made : Nat} {o : β} {os : List β} {log rest : Log} (h : Attempt log o)
      (hrest : Tries p Attempt (made + 1) os rest) :
      Tries p Attempt made (o :: os) (log ++ ⟨.sleep (p.waitAfter (made + 1)), ()⟩ :: rest)

theorem Tries.mono {Attempt Attempt' : Log → β → Prop} {os : List β}
    (h : p.Tries Attempt made os log) (himp : ∀ log o, Attempt log o → Attempt' log o) :
    p.Tries Attempt' made os log := by
  induction h with
  | last h => exact .last (himp _ _ h)
  | more h _ ih => exact .more (himp _ _ h) ih

/-- Every outcome is that of an attempt, of which the exchanges are among all exchanges. -/
theorem Tries.part_of_mem {Attempt : Log → β → Prop} {os : List β}
    (h : p.Tries Attempt made os log) :
    ∀ o ∈ os, ∃ part, Attempt part o ∧ part ⊆ log := by
  induction h with
  | last h => exact List.forall_mem_singleton.mpr ⟨_, h, List.Subset.refl _⟩
  | more h _ ih =>
      refine List.forall_mem_cons.mpr ⟨⟨_, h, List.subset_append_left _ _⟩, fun o ho => ?_⟩
      obtain ⟨part, hpart, hsub⟩ := ih o ho
      exact ⟨part, hpart, fun x hx => List.mem_append_right _ (List.mem_cons_of_mem _ (hsub hx))⟩

theorem Tries.attempt_of_mem {Attempt : Log → β → Prop} {os : List β}
    (h : p.Tries Attempt made os log) :
    ∀ o ∈ os, ∃ log, Attempt log o := fun o ho =>
  let ⟨part, hpart, _⟩ := h.part_of_mem o ho
  ⟨part, hpart⟩

/-- What is made of the outcomes changes nothing in the attempts. -/
theorem Tries.of_map {γ : Type} {act : Exchange β} {g : β → γ} {os : List γ}
    (h : p.Tries (act.bind fun a => .done (g a)).Comes made os log) :
    ∃ raw, p.Tries act.Comes made raw log ∧ os = raw.map g := by
  have hraw {log : Log} {o : γ} (h : (act.bind fun a => .done (g a)).Comes log o) :
      ∃ a, act.Comes log a ∧ o = g a := by
    obtain ⟨log₁, log₂, a, rfl, ha, h⟩ := Program.comes_bind_iff.mp h
    obtain ⟨rfl, rfl⟩ := Program.comes_done_iff.mp h
    rw [List.append_nil]
    exact ⟨a, ha, rfl⟩
  induction h with
  | last h =>
      obtain ⟨a, ha, rfl⟩ := hraw h
      exact ⟨[a], .last ha, rfl⟩
  | more h _ ih =>
      obtain ⟨a, ha, rfl⟩ := hraw h
      obtain ⟨raw, htries, rfl⟩ := ih
      exact ⟨a :: raw, .more ha htries, rfl⟩

/-- The outcomes are read off the exchanges when each of them is, and none off a wait. -/
theorem Tries.filterMap_eq {Attempt : Log → β → Prop} {os : List β}
    {P : Program.Exchange Op Op.Reply → Prop} {f : Program.Exchange Op Op.Reply → Option β}
    (h : p.Tries Attempt made os log) (hlog : ∀ x ∈ log, P x)
    (hf : ∀ log o, (∀ x ∈ log, P x) → Attempt log o → log.filterMap f = [o])
    (hwait : ∀ seconds, f ⟨.sleep seconds, ()⟩ = none) : log.filterMap f = os := by
  induction h with
  | last h => exact hf _ _ hlog h
  | more h _ ih =>
      obtain ⟨hfirst, hrest⟩ := List.forall_mem_append.mp hlog
      rw [List.filterMap_append, hf _ _ hfirst h, List.filterMap_cons, hwait,
        ih (List.forall_mem_cons.mp hrest).2]
      rfl

/-- The outcome calls for another attempt. -/
def goesOn (again : ε → Bool) : Except ε α → Bool
  | .ok _ => false
  | .error e => again e

/-- The outcomes of attempts of which so many may be made: all but the last call for another one,
and so does the last only when no more may be made. -/
structure Persisted (again : ε → Bool) (allowed : Nat) (os : List (Except ε α)) (r : Except ε α) :
    Prop where
  last : os.getLast? = some r
  length_le : os.length ≤ allowed
  goesOn_of_mem : ∀ o ∈ os.dropLast, goesOn again o = true
  settled : os.length < allowed → goesOn again r = false

/-- **What is tried with patience** is tried again while the outcome calls for it and attempts are
left. -/
theorem persist_comes (h : (p.persist again act left made).Comes log r) :
    ∃ os, p.Tries act.Comes made os log ∧ Persisted again (left + 1) os r := by
  induction left generalizing made log with
  | zero =>
      exact ⟨[r], .last h, rfl, Nat.le_refl 1, nofun, fun hlt => absurd hlt (Nat.lt_irrefl 1)⟩
  | succ left ih =>
      obtain ⟨log₁, log₂, o, rfl, ho, h⟩ := Program.comes_bind_iff.mp h
      -- an outcome after which nothing is tried again is the last one
      have hstop (hgo : goesOn again o = false) (h : (Program.done o : Exchange _).Comes log₂ r) :
          ∃ os, p.Tries act.Comes made os (log₁ ++ log₂) ∧ Persisted again (left + 1 + 1) os r := by
        obtain ⟨rfl, rfl⟩ := Program.comes_done_iff.mp h
        rw [List.append_nil]
        exact ⟨[r], .last ho, rfl, by simp, nofun, fun _ => hgo⟩
      cases o with
      | ok a => exact hstop rfl h
      | error e =>
          dsimp only at h
          split at h
          · next hagain =>
            obtain ⟨⟨⟩, rest, rfl, hrest⟩ := Program.comes_request_iff.mp h
            obtain ⟨os, htries, hos⟩ := ih hrest
            refine ⟨.error e :: os, .more ho htries, ?_, Nat.succ_le_succ hos.length_le, ?_, ?_⟩
            · rw [List.getLast?_cons, hos.last]
              rfl
            · have hne : os ≠ [] := by
                rintro rfl
                cases hos.last
              rw [List.dropLast_cons_of_ne_nil hne]
              exact List.forall_mem_cons.mpr ⟨hagain, hos.goesOn_of_mem⟩
            · exact fun hlt => hos.settled (Nat.lt_of_succ_lt_succ hlt)
          · next hagain => exact hstop (Bool.eq_false_iff.mpr hagain) h

/-- **The number of attempts**: so many as may be made, or up to the first outcome that does not
call for another, whatever the attempts had come to that were not made. -/
theorem Persisted.length_eq {allowed : Nat} {os : List (Except ε α)}
    (h : Persisted again allowed os r) (later : List (Except ε α)) :
    os.length = min allowed ((os ++ later).findIdx (fun o => !goesOn again o) + 1) := by
  obtain ⟨init, rfl⟩ := List.getLast?_eq_some_iff.mp h.last
  have hle := h.length_le
  have hinit : init.findIdx (fun o => !goesOn again o) = init.length := by
    refine List.findIdx_eq_length.mpr fun o ho => ?_
    rw [h.goesOn_of_mem o (by simpa using ho)]
    rfl
  have hsettled := h.settled
  rw [List.append_assoc, List.findIdx_append, hinit, if_neg (Nat.lt_irrefl _),
    List.singleton_append, List.findIdx_cons]
  rw [List.length_append, List.length_singleton] at hle hsettled ⊢
  cases hgo : goesOn again r with
  | false => simp; omega
  | true =>
      have hfull : ¬ init.length + 1 < allowed := fun hlt => by simp [hsettled hlt] at hgo
      simp
      omega

end Patience

namespace Client

variable {c : Client} {left : Nat} {r : Request} {log : Log} {o : Except Fault Response}

/-- The reply sends the client on to another address. -/
def Redirects (x : Program.Exchange Op Op.Reply) : Prop :=
  ∃ r a location, x = ⟨.send r, .ok a⟩ ∧ location? a = some location

/-- A request with those that it is sent on to, at most so many, and what the client makes of them.
-/
inductive Followed : Nat → Request → Log → Except Fault Response → Prop where
  | answered {left : Nat} {r : Request} {a : Response} (h : location? a = none) :
      Followed left r [⟨.send r, (.ok a : Except (Trouble × String) Response)⟩] (.ok a)
  | troubled {left : Nat} {r : Request} {t : Trouble} {text : String} :
      Followed left r [⟨.send r, (.error (t, text) : Except (Trouble × String) Response)⟩]
        (.error (.trouble t text))
  /-- The answer sends the client to no address. -/
  | lost {left : Nat} {r : Request} {a : Response} {location : String} {e : Fault}
      (h : location? a = some location)
      (hr : requestAfter r a.status location = .error e) :
      Followed left r [⟨.send r, (.ok a : Except (Trouble × String) Response)⟩] (.error e)
  /-- The client was sent on too often. -/
  | tired {r next : Request} {a : Response} {location : String} (h : location? a = some location)
      (hr : requestAfter r a.status location = .ok next) :
      Followed 0 r [⟨.send r, (.ok a : Except (Trouble × String) Response)⟩]
        (.error (.trouble .redirects "Exceeded maximum allowed redirects."))
  | on {left : Nat} {r next : Request} {a : Response} {location : String} {rest : Log}
      {o : Except Fault Response}
      (h : location? a = some location) (hr : requestAfter r a.status location = .ok next)
      (hrest : Followed left next rest o) :
      Followed (left + 1) r (⟨.send r, (.ok a : Except (Trouble × String) Response)⟩ :: rest) o

/-- **A client that follows** goes where the answers send it. -/
theorem follow_comes (hc : c.followsRedirects = true) (left : Nat) {r : Request} {log : Log}
    {o : Except Fault Response} (h : (follow c left r).Comes log o) : Followed left r log o := by
  unfold follow at h
  obtain ⟨reply, rest, rfl, hrest⟩ := Program.comes_request_iff.mp h
  change Except (Trouble × String) Response at reply
  dsimp only [Program.bind] at hrest
  cases reply with
  | error trouble =>
      obtain ⟨rfl, rfl⟩ := Program.comes_done_iff.mp hrest
      exact .troubled
  | ok a =>
      cases hlocation : location? a with
      | none =>
          rw [settle_answered c r hlocation] at hrest
          obtain ⟨rfl, rfl⟩ := Program.comes_done_iff.mp hrest
          exact .answered hlocation
      | some location =>
          have hsettle : c.settle r (.ok a) = (requestAfter r a.status location).map .inr := by
            simp only [settle, hlocation, hc, if_true]
          rw [hsettle] at hrest
          cases hnext : requestAfter r a.status location with
          | error e =>
              rw [hnext] at hrest
              obtain ⟨rfl, rfl⟩ := Program.comes_done_iff.mp hrest
              exact .lost hlocation hnext
          | ok next =>
              rw [hnext] at hrest
              -- every further address takes one from the number that is left
              cases left with
              | zero =>
                  obtain ⟨rfl, rfl⟩ := Program.comes_done_iff.mp hrest
                  exact .tired hlocation hnext
              | succ left => exact .on hlocation hnext (follow_comes hc left hrest)

/-- What a reply that does not send the client on makes of a request. -/
def outcome? : Program.Exchange Op Op.Reply → Option (Except Fault Response)
  | ⟨.send _, reply⟩ =>
    some ((show Except (Trouble × String) Response from reply).mapError fun e => .trouble e.1 e.2)
  | ⟨.sleep _, _⟩ => none

/-- Without answers that send it on, a client sends one request, and the reply is what it makes of
it. -/
theorem Followed.outcome (h : Followed left r log o) (hstay : ∀ x ∈ log, ¬ Redirects x) :
    log.filterMap outcome? = [o] := by
  cases h with
  | answered | troubled => rfl
  | lost hl | tired hl | on hl =>
      exact absurd ⟨_, _, _, rfl, hl⟩ (hstay _ List.mem_cons_self)

/-- Where no request follows an answer, the address that it sends to is none. -/
theorem requestAfter_error {a : Response} {location : String} {e : Fault}
    (h : requestAfter r a.status location = .error e) :
    (∃ t text, e = .trouble t text) ∨ ∃ u, e = .address u := by
  have hurl : urlAfter r.url location = .error e := by
    unfold requestAfter at h
    cases hu : urlAfter r.url location with
    | error e' =>
        rw [hu] at h
        exact congrArg Except.error (Except.error.inj h)
    | ok url =>
        rw [hu] at h
        cases h
  unfold urlAfter at hurl
  split at hurl
  · cases hurl
    exact .inl ⟨_, _, rfl⟩
  · next v _ =>
    dsimp only at hurl
    split at hurl
    · cases hcheck : Url.checkPath true true v.path.toList with
      | error u =>
          rw [hcheck] at hurl
          cases hurl
          exact .inr ⟨u, rfl⟩
      | ok =>
          rw [hcheck] at hurl
          cases hurl
    · cases hurl

/-- What goes wrong with a request that was sent is trouble, or an address that is none. -/
theorem Followed.error_cases (h : Followed left r log o) {e : Fault} (ho : o = .error e) :
    (∃ t text, e = .trouble t text) ∨ ∃ u, e = .address u := by
  induction h with
  | answered => cases ho
  | troubled | tired =>
      cases ho
      exact .inl ⟨_, _, rfl⟩
  | lost _ hr =>
      cases ho
      exact requestAfter_error hr
  | on _ _ _ ih => exact ih ho

end Client
end Parley.Http
