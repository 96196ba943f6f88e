import OrderDesk.Client.Basic
import OrderDesk.Proofs.Ensures

/-!
# Requests that get through

A request may have to wait at the gate, may be sent again, and may be given up where the desk is
cancelled.  On its way it changes the gate and the stamps and nothing else, which is no matter to
most of its company (`Company.Lenient`).

Where the desk is not cancelled and the gate stays within its range (`undisturbed`), whatever else
others do with the state, a request for public data is sent once for every answer that does not ask
for patience, and what comes of it is what its last answer says.  What is known of such a procedure
are the requests that it sent.
-/

namespace OrderDesk

/-! ## 1. The way of a request -/

section Way

variable {κ α β : Type} {C : Company DeskState κ} {k : κ}

/-- A company that does not mind what a request changes on its way: the gate and the stamps. -/
structure Company.Lenient (C : Company DeskState κ) : Prop where
  allows : ∀ {k s}, C.meets k s → ∀ gate nonce, C.allows s { s with gate, nonce }
  changed : ∀ {k s}, C.meets k s → ∀ gate nonce, C.changed k s { s with gate, nonce } = k

/-- A step that changes the gate and the stamps at most leaves everybody with what is known. -/
theorem Company.Lenient.access {post : κ → β → Prop} {set : DeskState → DeskState}
    {next : DeskState → Deed β} (hC : C.Lenient)
    (hset : ∀ s, ∃ gate nonce, set s = { s with gate, nonce })
    (h : ∀ s, C.meets k s → (next s).Ensures C post k) :
    (Act.access set next).Ensures C post k := by
  intro s hs
  obtain ⟨gate, nonce, heq⟩ := hset s
  rw [heq]
  refine ⟨hC.allows hs gate nonce, ?_⟩
  rw [hC.changed hs]
  exact h s hs

variable {post : κ → Outcome α → Prop} {next : Trial α}

namespace Rest

theorem ensures_orCancelled (hC : C.Lenient) (h : next.Ensures C post k)
    (hcancelled : ∀ s, C.meets k s → s.cancelled = true → post k (.error .cancelled)) :
    (orCancelled next).Ensures C post k := by
  refine hC.access (fun s => ⟨s.gate, s.nonce, rfl⟩) ?_
  intro s hs
  split
  · rename_i hcancel
    intro i _
    dsimp only
    split
    · exact hcancelled s hs hcancel
    · exact h
  · exact h

theorem ensures_pause (hC : C.Lenient) (nanos : Nat) (h : next.Ensures C post k)
    (hcancelled : ∀ s, C.meets k s → s.cancelled = true → post k (.error .cancelled)) :
    (pause nanos next).Ensures C post k := by
  refine ⟨rfl, h, ?_⟩
  intro s hs hcancel
  have hsame : C.changed k s (id s) = k := hC.changed hs s.gate s.nonce
  refine ⟨hC.allows hs s.gate s.nonce, ?_⟩
  rw [hsame]
  exact hcancelled s hs hcancel

theorem ensures_passGate (hC : C.Lenient) (h : next.Ensures C post k)
    (hcancelled : ∀ s, C.meets k s → s.cancelled = true → post k (.error .cancelled))
    (hfits : ∀ s, C.meets k s → s.gate.fits s.now = true ∨ C.halfway k) :
    (passGate next).Ensures C post k := by
  refine hC.access (fun s => ⟨s.gate.pass s.now, s.nonce, rfl⟩) ?_
  intro s hs
  have hnext : (if s.gate.fits s.now then next else .halt .sum).Ensures C post k := by
    split
    · exact h
    · rename_i hfull
      exact (hfits s hs).resolve_left hfull
  dsimp only
  split
  · exact hnext
  · exact ensures_pause hC _ hnext hcancelled

end Rest
end Way

/-! ## 2. From the first attempt to the last answer -/

theorem HttpRequest.method_carrying (method path payload : String)
    (headers : List (String × String)) :
    (HttpRequest.carrying method path payload headers).method = method := by
  unfold HttpRequest.carrying
  split <;> rfl

/-- A prepared request has the verb that it was prepared for. -/
theorem HttpRequest.method_of_prepare {signer : Option Signer} {method path payload : String}
    {access : Access} {stamp : Nat} {q : HttpRequest}
    (h : HttpRequest.prepare signer method path payload access stamp = .ok q) :
    q.method = method := by
  unfold HttpRequest.prepare at h
  split at h
  · cases h
    exact method_carrying ..
  · cases h
  · cases h
    exact method_carrying ..
  · cases h
    exact method_carrying ..

namespace Rest

section Way

variable {κ : Type} {C : Company DeskState κ} {method : String} {before : κ → Prop}
  {post : κ → Outcome HttpResponse → Prop} {k : κ}

/-- What may be known of a request with this verb, before each attempt and at the end.

* `halfway`, `failed`: everything may end before an attempt, and so may the request;
* `again`: after an answer that asks for patience there may be a further attempt;
* `answered`: any answer may be the last;
* `cancelled`: where the desk is cancelled, the answer may get lost. -/
structure Way (C : Company DeskState κ) (method : String) (before : κ → Prop)
    (post : κ → Outcome HttpResponse → Prop) : Prop where
  lenient : C.Lenient
  halfway : ∀ {k}, before k → C.halfway k
  failed : ∀ {k}, before k → ∀ e, post k (.error e)
  again : ∀ {k q a}, before k → q.method = method → C.answers q (.ok a) →
    a.isThrottled = true → before (C.heard k q (.ok a))
  answered : ∀ {k q o}, before k → q.method = method → C.answers q o → post (C.heard k q o) o
  cancelled : ∀ {k q o s}, before k → q.method = method → C.answers q o →
    C.meets (C.heard k q o) s → s.cancelled = true → post (C.heard k q o) (.error .cancelled)

theorem Way.weaken {post' : κ → Outcome HttpResponse → Prop} (h : Way C method before post)
    (himp : ∀ k o, post k o → post' k o) : Way C method before post' where
  lenient := h.lenient
  halfway := h.halfway
  failed := fun hk e => himp _ _ (h.failed hk e)
  again := h.again
  answered := fun hk hq ho => himp _ _ (h.answered hk hq ho)
  cancelled := fun hk hq ho hs hcancelled => himp _ _ (h.cancelled hk hq ho hs hcancelled)

/-- **An attempt leads to an answer**, or to no request at all. -/
theorem Way.ensures_attempt (h : Way C method before post) (r : Rest) (path payload : String)
    (access : Access) (hk : before k) :
    (r.attempt method path payload access).Ensures C
      (fun k' o => post k' o ∧ ∀ a, o = .ok a → a.isThrottled = true → before k') k := by
  have hfailed : ∀ e, post k (.error e) ∧
      ∀ a, (.error e : Outcome HttpResponse) = .ok a → a.isThrottled = true → before k :=
    fun e => ⟨h.failed hk e, nofun⟩
  have hask : ∀ (o : Outcome HttpRequest), (∀ q, o = .ok q → q.method = method) →
      ((Act.ofOutcome o).andThen fun q =>
        Act.ask q fun answer => orCancelled (.ofOutcome answer)).Ensures C
        (fun k' o => post k' o ∧ ∀ a, o = .ok a → a.isThrottled = true → before k') k := by
    intro o hmethod
    cases o with
    | error e => exact hfailed e
    | ok q =>
      have hq : q.method = method := hmethod q rfl
      intro answer hanswer
      refine ensures_orCancelled h.lenient ⟨h.answered hk hq hanswer, ?_⟩ fun s hs hcancelled =>
        ⟨h.cancelled hk hq hanswer hs hcancelled, nofun⟩
      rintro a rfl hasks
      exact h.again hk hq hanswer hasks
  refine ensures_orCancelled h.lenient (ensures_passGate h.lenient ?_ (fun _ _ _ => hfailed _)
    fun _ _ => Or.inr (h.halfway hk)) fun _ _ _ => hfailed _
  unfold prepare
  split
  · refine h.lenient.access (fun s => ⟨s.gate, s.nonce.next s.clock, rfl⟩) ?_
    intro s _
    dsimp only
    cases s.nonce.stamp? s.clock with
    | none => exact h.halfway hk
    | some stamp => exact hask _ fun q hq => HttpRequest.method_of_prepare hq
  · exact hask _ fun q hq => HttpRequest.method_of_prepare hq

theorem Way.ensures_attempts (h : Way C method before post) (r : Rest) (path payload : String)
    (access : Access) (left number : Nat) (hk : before k) :
    (r.attempts method path payload access left number).Ensures C post k := by
  induction left generalizing number k with
  | zero => exact (h.ensures_attempt r path payload access hk).mono fun _ _ => And.left
  | succ left ih =>
    refine Act.Ensures.andThen ((h.ensures_attempt r path payload access hk).mono ?_)
    rintro k' o ⟨hpost, hagain⟩
    cases o with
    | error e => exact hpost
    | ok answer =>
      dsimp only
      split
      · rename_i hasks
        have hk' : before k' := hagain answer rfl hasks
        exact ensures_pause h.lenient _ (ih (number + 1) hk') fun _ _ _ => h.failed hk' _
      · exact hpost

/-- **A request leads to its last answer**, or to no answer at all. -/
theorem Way.ensures_execute (h : Way C method before post) (r : Rest) (path : String)
    (ps : Parameters) (access : Access) (hk : before k) :
    (r.execute method path ps access).Ensures C post k := by
  unfold execute
  split
  · exact h.ensures_attempts r path _ access _ 1 hk
  · exact h.halfway hk

end Way
end Rest

/-! ## 3. What an answer says -/

theorem HttpResponse.not_isSuccess_of_isThrottled {a : HttpResponse} (h : a.isThrottled = true) :
    a.isSuccess = false := by
  have hstatus : a.status = 429 := beq_iff_eq.mp h
  rw [HttpResponse.isSuccess, hstatus]
  rfl

/-- An answer has a value just if it is a success and its text has that value. -/
theorem HttpResponse.decode_eq_ok_iff {α : Type} {a : HttpResponse} {attempts : Nat}
    {decode : Json → Decoded α} {x : α} : a.decode attempts decode = .ok x ↔
      a.isSuccess = true ∧ Json.decodeText decode a.body = .ok x := by
  unfold HttpResponse.decode
  cases hsuccess : a.isSuccess with
  | false => split <;> simp
  | true =>
    have hnot : ¬ a.isThrottled = true := fun h =>
      Bool.false_ne_true ((HttpResponse.not_isSuccess_of_isThrottled h).symm.trans hsuccess)
    rw [if_neg hnot]
    cases Json.decodeText decode a.body <;> simp

/-! ## 4. Requests for public data -/

/-- Nobody cancels the desk, the gate stays within its range, and requests are answered like
this. -/
def undisturbed (answers : HttpRequest → Outcome HttpResponse → Prop) :
    Company DeskState (List HttpRequest) where
  meets _ s := s.cancelled = false ∧ s.gate.fits s.now = true
  answers := answers
  allows _ _ := True
  changed sent _ _ := sent
  heard sent r _ := sent ++ [r]
  halfway _ := False

theorem lenient_undisturbed (answers : HttpRequest → Outcome HttpResponse → Prop) :
    (undisturbed answers).Lenient where
  allows := fun _ _ _ => trivial
  changed := fun _ _ _ => rfl

namespace Rest

variable {answers : HttpRequest → Outcome HttpResponse → Prop} {α : Type}
  {post : List HttpRequest → Outcome α → Prop} {sent : List HttpRequest}

/-- A request for public data. -/
def openRequest (path : String) (ps : Parameters) : HttpRequest :=
  .carrying "GET" path (canonicalQuery ps) []

theorem openRequest_query (path : String) (ps : Parameters) :
    (openRequest path ps).query = canonicalQuery ps := by
  rw [openRequest, HttpRequest.carrying, if_neg (by decide)]

/-- **An attempt sends one request** and ends with its answer. -/
theorem ensures_attempt (r : Rest) (path : String) (ps : Parameters)
    {post : List HttpRequest → Outcome HttpResponse → Prop}
    (h : ∀ o, answers (openRequest path ps) o → post (sent ++ [openRequest path ps]) o) :
    (r.attempt "GET" path (canonicalQuery ps) .open).Ensures (undisturbed answers) post sent := by
  have hcalm : ∀ {sent : List HttpRequest} {p : Prop} (s : DeskState),
      (undisturbed answers).meets sent s → s.cancelled = true → p :=
    fun s hs hcancel => absurd (hs.1.symm.trans hcancel) Bool.false_ne_true
  have hC := lenient_undisturbed answers
  refine ensures_orCancelled hC (ensures_passGate hC ?_ hcalm fun s hs => Or.inl hs.2) hcalm
  intro o ho
  exact ensures_orCancelled hC (h o ho) hcalm

/-- **Where the exchange does not ask for patience, a request for public data is sent once**, and
its answer counts. -/
theorem ensures_request (r : Rest) (path : String) (ps : Parameters) {decode : Json → Decoded α}
    (hfits : r.retry.fits = true)
    (h : ∀ o, answers (openRequest path ps) o →
      (∀ a, o = .ok a → a.isThrottled = false) ∧
        post (sent ++ [openRequest path ps]) (o.bind fun a => a.decode r.retry.attempts decode)) :
    (r.request "GET" path ps .open decode).Ensures (undisturbed answers) post sent := by
  refine Act.Ensures.andThen ?_
  rw [execute, if_pos hfits]
  cases r.retry.attempts - 1 with
  | zero =>
    refine ensures_attempt r path ps ?_
    intro o ho
    have hpost := (h o ho).2
    cases o with
    | ok a => exact hpost
    | error e => exact hpost
  | succ left =>
    refine Act.Ensures.andThen (ensures_attempt r path ps ?_)
    intro o ho
    obtain ⟨hpatience, hpost⟩ := h o ho
    cases o with
    | ok a =>
      dsimp only
      rw [if_neg (by rw [hpatience a rfl]; exact Bool.false_ne_true)]
      exact hpost
    | error e => exact hpost

end Rest
end OrderDesk
