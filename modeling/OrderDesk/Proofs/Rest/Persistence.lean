import OrderDesk.Proofs.Rest.Retry

/-!
# Requests for public data, whatever comes back

A request for public data is sent, and sent again while the exchange asks for patience.  Here
nothing is assumed of the answers, and the desk may be cancelled at any time: the request then ends
without an answer, before its first attempt or after any other.

What is known are all requests with their answers.  Those of one call are the same request over and
over (`Persisted`), and but for a cancellation what comes of the call is what the last answer says.
-/

namespace OrderDesk

/-- The gate stays within its range, requests are answered like this, and all of it is written
down. -/
def logged (answers : HttpRequest → Outcome HttpResponse → Prop) :
    Company DeskState (List (HttpRequest × Outcome HttpResponse)) where
  meets _ s := s.gate.fits s.now = true
  answers := answers
  allows _ _ := True
  changed log _ _ := log
  heard log q o := log ++ [(q, o)]
  halfway _ := False

theorem lenient_logged (answers : HttpRequest → Outcome HttpResponse → Prop) :
    (logged answers).Lenient where
  allows := fun _ _ _ => trivial
  changed := fun _ _ _ => rfl

namespace Rest

/-- The answers to a request that was sent at most `limit` times, and what came of it.

* `again`: after all but the last the exchange asked for patience;
* `last`: the last counts, unless the desk was cancelled. -/
structure Persisted (answers : HttpRequest → Outcome HttpResponse → Prop) (q : HttpRequest)
    (limit : Nat) (tries : List (Outcome HttpResponse)) (o : Outcome HttpResponse) : Prop where
  length_le : tries.length ≤ limit
  again : ∀ t ∈ tries.dropLast, asksPatience t = true
  answered : ∀ t ∈ tries, answers q t
  last : o = .error .cancelled ∨ tries.getLast? = some o

variable {answers : HttpRequest → Outcome HttpResponse → Prop} {q : HttpRequest} {limit : Nat}
  {tries : List (Outcome HttpResponse)} {o : Outcome HttpResponse}

namespace Persisted

theorem cancelled : Persisted answers q limit [] (.error .cancelled) where
  length_le := Nat.zero_le _
  again := nofun
  answered := nofun
  last := Or.inl rfl

theorem single (h : answers q o) : Persisted answers q (limit + 1) [o] o where
  length_le := Nat.succ_le_succ (Nat.zero_le _)
  again := nofun
  answered := List.forall_mem_singleton.mpr h
  last := Or.inr rfl

/-- A cancellation may take the answer away. -/
theorem lost (h : Persisted answers q limit tries o) :
    Persisted answers q limit tries (.error .cancelled) :=
  { h with last := Or.inl rfl }

theorem weaken (h : Persisted answers q limit tries o) {limit' : Nat} (hle : limit ≤ limit') :
    Persisted answers q limit' tries o :=
  { h with length_le := Nat.le_trans h.length_le hle }

/-- One more attempt before those. -/
theorem cons {a : Outcome HttpResponse} (ha : answers q a) (hasks : asksPatience a = true)
    (h : Persisted answers q limit tries o) : Persisted answers q (limit + 1) (a :: tries) o where
  length_le := Nat.succ_le_succ h.length_le
  again := by
    cases tries with
    | nil => exact nofun
    | cons second rest =>
      rw [List.dropLast_cons_cons]
      exact List.forall_mem_cons.mpr ⟨hasks, h.again⟩
  answered := List.forall_mem_cons.mpr ⟨ha, h.answered⟩
  last := by
    cases tries with
    | nil => exact h.last.imp id nofun
    | cons second rest =>
      rw [List.getLast?_cons_cons]
      exact h.last

/-- An answer that counts came back for the request. -/
theorem answers_of_ok {a : HttpResponse} (h : Persisted answers q limit tries (.ok a)) :
    answers q (.ok a) := by
  rcases h.last with hcancelled | hlast
  · cases hcancelled
  · exact h.answered _ (List.mem_of_getLast? hlast)

end Persisted

variable {log : List (HttpRequest × Outcome HttpResponse)}

/-- What is known after a request with this outcome. -/
def Came (answers : HttpRequest → Outcome HttpResponse → Prop) (q : HttpRequest) (limit : Nat)
    (log log' : List (HttpRequest × Outcome HttpResponse)) (o : Outcome HttpResponse) : Prop :=
  ∃ tries, log' = log ++ tries.map (q, ·) ∧ Persisted answers q limit tries o

/-- **An attempt sends one request at most.** -/
theorem ensures_attempt_logged (r : Rest) (path : String) (ps : Parameters) :
    (r.attempt "GET" path (canonicalQuery ps) .open).Ensures (logged answers)
      (Came answers (openRequest path ps) 1 log) log := by
  have hC := lenient_logged answers
  have hnone : Came answers (openRequest path ps) 1 log log (.error .cancelled) :=
    ⟨[], (List.append_nil _).symm, .cancelled⟩
  refine ensures_orCancelled hC (ensures_passGate hC ?_ (fun _ _ _ => hnone)
    fun s hs => Or.inl hs) fun _ _ _ => hnone
  intro o ho
  have hone : Came answers (openRequest path ps) 1 log (log ++ [(openRequest path ps, o)]) o :=
    ⟨[o], rfl, .single ho⟩
  refine ensures_orCancelled hC hone fun _ _ _ => ?_
  obtain ⟨tries, hlog, htries⟩ := hone
  exact ⟨tries, hlog, htries.lost⟩

/-- An attempt that was answered is one request. -/
theorem Came.of_ok {a : HttpResponse} {log' : List (HttpRequest × Outcome HttpResponse)}
    (h : Came answers q 1 log log' (.ok a)) : log' = log ++ [(q, .ok a)] ∧ answers q (.ok a) := by
  obtain ⟨tries, rfl, htries⟩ := h
  have hlast := htries.last.resolve_left nofun
  have hlength := htries.length_le
  match tries with
  | [] => cases hlast
  | [t] =>
    obtain rfl := Option.some.inj hlast
    exact ⟨rfl, htries.answers_of_ok⟩
  | _ :: _ :: _ => simp at hlength

/-- **Attempts are the same request over and over.**  The induction is on the number of attempts
that are left. -/
theorem ensures_attempts_logged (r : Rest) (path : String) (ps : Parameters) (left number : Nat) :
    (r.attempts "GET" path (canonicalQuery ps) .open left number).Ensures (logged answers)
      (Came answers (openRequest path ps) (left + 1) log) log := by
  have hC := lenient_logged answers
  induction left generalizing number log with
  | zero => exact ensures_attempt_logged r path ps
  | succ left ih =>
    refine Act.Ensures.andThen ((ensures_attempt_logged r path ps).mono ?_)
    intro log' o hcame
    have hdone : Came answers (openRequest path ps) (left + 1 + 1) log log' o := by
      obtain ⟨tries, hlog, htries⟩ := hcame
      exact ⟨tries, hlog, htries.weaken (Nat.succ_le_succ (Nat.zero_le _))⟩
    cases o with
    | error e => exact hdone
    | ok a =>
      dsimp only
      split
      · rename_i hasks
        obtain ⟨rfl, ha⟩ := hcame.of_ok
        refine ensures_pause hC _ ((ih (number + 1)).mono ?_) fun _ _ _ => ?_
        · rintro log'' o ⟨tries, rfl, htries⟩
          exact ⟨.ok a :: tries, by rw [List.append_assoc]; rfl, htries.cons ha hasks⟩
        · obtain ⟨tries, hlog, htries⟩ := hdone
          exact ⟨tries, hlog, htries.lost⟩
      · exact hdone

/-- **A request for public data** is what its answers make of it. -/
theorem ensures_request_logged {α : Type} (r : Rest) (path : String) (ps : Parameters)
    {decode : Json → Decoded α} (hfits : r.retry.fits = true) :
    (r.request "GET" path ps .open decode).Ensures (logged answers)
      (fun log' out => ∃ o, out = (o.bind fun a => a.decode r.retry.attempts decode) ∧
        Came answers (openRequest path ps) (r.retry.attempts - 1 + 1) log log' o) log := by
  refine Act.Ensures.andThen ?_
  rw [execute, if_pos hfits]
  refine (ensures_attempts_logged r path ps _ 1).mono ?_
  intro log' o hcame
  cases o with
  | ok a => exact ⟨.ok a, rfl, hcame⟩
  | error e => exact ⟨.error e, rfl, hcame⟩

end Rest
end OrderDesk
