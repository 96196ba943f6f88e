import OrderDesk.Proofs.Rest
import OrderDesk.Proofs.Watch

/-!
# Patience

While the exchange asks for patience a request is sent again, after a pause that grows by a step
every time, until the attempts are used up.  This module follows one request from its first attempt
to its last, whatever others do with the state meanwhile and whatever comes back.

What is known of a request on its way is a `Chronicle`: every attempt with its answer, every time
that was waited out, and the last stamp as the request left it.  From the chronicle of a request
that came to its end the attempts can be told (`paced`), and what is said of them (`Tried`) is that
all but the last met with a plea for patience, that the last answer is the result, that each carries
the same parameters with a stamp of its own, and that each stamp is greater than those before.

Nothing is said here about a request that is cancelled, nor about one whose gate or clock leaves
its range (`DeskState.InRange`).
-/

namespace OrderDesk

/-! ## 1. What an attempt carries -/

/-- The parameters of a request as they are sent. -/
def HttpRequest.text (q : HttpRequest) : String :=
  if q.method = "POST" then q.body.getD "" else q.query

theorem HttpRequest.text_carrying (method path payload : String)
    (headers : List (String × String)) :
    (HttpRequest.carrying method path payload headers).text = payload := by
  unfold HttpRequest.carrying HttpRequest.text
  by_cases hpost : method = "POST"
  · simp only [hpost, if_true]
    split
    · rename_i hempty
      exact (String.isEmpty_iff.mp hempty).symm
    · rfl
  · simp only [hpost, if_false]

theorem HttpRequest.path_carrying (method path payload : String)
    (headers : List (String × String)) :
    (HttpRequest.carrying method path payload headers).path = path := by
  unfold HttpRequest.carrying
  split <;> rfl

theorem intercalate_snoc (separator text : String) (first : String) (rest : List String) :
    separator.intercalate (first :: rest ++ [text]) =
      separator.intercalate (first :: rest) ++ separator ++ text := by
  induction rest generalizing first with
  | nil => simp only [List.cons_append, List.nil_append, String.intercalate_cons_cons,
      String.intercalate_singleton]
  | cons second rest ih =>
    rw [String.intercalate_cons_cons, List.cons_append, List.cons_append,
      String.intercalate_cons_cons, ← List.cons_append, ih]
    simp only [String.append_assoc]

/-- A further parameter stands after those before it. -/
theorem joined_canonicalQuery (ps : Parameters) (p : String × String) :
    Signer.joined (canonicalQuery ps) (p.1 ++ "=" ++ p.2) = canonicalQuery (ps ++ [p]) := by
  cases ps with
  | nil => simp only [canonicalQuery, List.map_nil, List.nil_append, List.map_cons,
      String.intercalate_singleton]; rfl
  | cons first rest =>
    have hfull : (canonicalQuery (first :: rest)).isEmpty = false := by
      rw [String.isEmpty_eq_false_iff, canonicalQuery, List.map_cons]
      cases rest with
      | nil => simp [String.append_eq_empty_iff]
      | cons second rest => simp [String.intercalate_cons_cons, String.append_eq_empty_iff]
    rw [Signer.joined, hfull]
    simp only [canonicalQuery, List.map_append, List.map_cons, List.map_nil]
    exact (intercalate_snoc ..).symm

theorem extendPayload_canonicalQuery (ps qs : Parameters) :
    extendPayload (canonicalQuery ps) qs = canonicalQuery (ps ++ qs) := by
  induction qs generalizing ps with
  | nil => rw [List.append_nil]; rfl
  | cons q qs ih =>
    rw [List.append_cons, ← ih (ps ++ [q]), ← joined_canonicalQuery]
    rfl

namespace Rest

/-- What is asked of the exchange: a request before it is stamped and signed. -/
structure Call where
  method : String
  path : String
  parameters : Parameters
  access : Access

/-- The procedure of a call. -/
def Call.deed (r : Rest) (c : Call) : Trial HttpResponse :=
  r.execute c.method c.path c.parameters c.access

/-- A call that can be prepared: without a signer only open data can be asked for. -/
def Call.Preparable (r : Rest) (c : Call) : Prop := c.access = .open ∨ r.signer.isSome = true

/-- The parameters that an attempt adds to those of the caller. -/
def added (r : Rest) (c : Call) (stamp : Nat) : Parameters :=
  match c.access, r.signer with
  | .signed, some s => s.appended (canonicalQuery c.parameters) stamp
  | _, _ => []

/-- A request is an attempt at a call with this stamp: it has the verb, the path and the parameters
of the call, and its stamp if it is signed. -/
structure Carries (r : Rest) (c : Call) (stamp : Nat) (q : HttpRequest) : Prop where
  method : q.method = c.method
  path : q.path = c.path
  text : q.text = canonicalQuery (c.parameters ++ r.added c stamp)
  stamped : c.access = .signed → ("timestamp", Text.ofNat stamp) ∈ r.added c stamp

variable {r : Rest} {c : Call}

theorem carries_carrying {stamp : Nat} {headers : List (String × String)}
    (h : c.access = .signed → ("timestamp", Text.ofNat stamp) ∈ r.added c stamp) :
    r.Carries c stamp (.carrying c.method c.path
      (extendPayload (canonicalQuery c.parameters) (r.added c stamp)) headers) where
  method := HttpRequest.method_carrying ..
  path := HttpRequest.path_carrying ..
  text := by rw [HttpRequest.text_carrying, extendPayload_canonicalQuery]
  stamped := h

/-- **A call that can be prepared is an attempt at itself**, whatever the stamp. -/
theorem exists_prepared (h : c.Preparable r) (stamp : Nat) :
    ∃ q, HttpRequest.prepare r.signer c.method c.path (canonicalQuery c.parameters) c.access stamp =
      .ok q ∧ r.Carries c stamp q := by
  have hcarries : ∀ headers, (c.access = .signed →
      ("timestamp", Text.ofNat stamp) ∈ r.added c stamp) → r.Carries c stamp
        (.carrying c.method c.path
          (extendPayload (canonicalQuery c.parameters) (r.added c stamp)) headers) :=
    fun headers => carries_carrying
  cases haccess : c.access with
  | «open» =>
    have hadded : r.added c stamp = [] := by simp only [added, haccess]
    rw [haccess, hadded] at hcarries
    exact ⟨_, rfl, hcarries [] nofun⟩
  | key =>
    have hadded : r.added c stamp = [] := by simp only [added, haccess]
    rw [haccess, hadded] at hcarries
    obtain ⟨s, hsigner⟩ := Option.isSome_iff_exists.mp (h.resolve_left (by simp [haccess]))
    rw [hsigner]
    exact ⟨_, rfl, hcarries s.headers nofun⟩
  | signed =>
    obtain ⟨s, hsigner⟩ := Option.isSome_iff_exists.mp (h.resolve_left (by simp [haccess]))
    have hadded : r.added c stamp = s.appended (canonicalQuery c.parameters) stamp := by
      simp only [added, haccess, hsigner]
    rw [hadded] at hcarries
    rw [hsigner]
    refine ⟨_, rfl, hcarries s.headers fun _ => ?_⟩
    unfold Signer.appended Signer.stamps
    cases s.receiveWindow <;> simp

/-- Where nothing is signed the stamp does not matter. -/
theorem Carries.of_ne_signed {stamp stamp' : Nat} {q : HttpRequest} (hc : c.access ≠ .signed)
    (h : r.Carries c stamp q) : r.Carries c stamp' q := by
  have hadded : ∀ stamp, r.added c stamp = [] := by
    intro stamp
    unfold added
    split
    · contradiction
    · rfl
  refine ⟨h.method, h.path, ?_, fun hsigned => absurd hsigned hc⟩
  rw [h.text, hadded, hadded]

end Rest

/-! ## 2. Chronicles -/

/-- Something that happens while a request is on its way. -/
inductive Incident where
  | met (s : DeskState)
  | asked (q : HttpRequest) (o : Outcome HttpResponse)
  | waited (nanos : Nat)

/-- What is known of a request on its way: the last stamp before and after the last step, and
everything that happened. -/
structure Chronicle where
  before : Nat
  last : Nat
  log : List Incident

/-- A chronicle after a step that took no stamp. -/
def Chronicle.settled (last : Nat) (log : List Incident) : Chronicle := ⟨last, last, log⟩

/-- The numbers that a request works with are within their ranges. -/
def DeskState.InRange (s : DeskState) : Prop :=
  s.gate.fits s.now = true ∧ s.nonce.inRange s.clock = true

/-- Nobody cancels the desk or takes a stamp back, and everything is written down.  A number that
leaves its range ends everything. -/
def watched (sends : Chronicle → HttpRequest → Prop) : Watch DeskState Chronicle where
  meets k s := s.cancelled = false ∧ k.last ≤ s.nonce.last
  answers _ _ := True
  allows s s' := s'.cancelled = s.cancelled ∧ s.nonce.last ≤ s'.nonce.last
  changed k s s' := ⟨s.nonce.last, s'.nonce.last, k.log ++ [.met s]⟩
  heard k q o := .settled k.last (k.log ++ [.asked q o])
  halfway k := ∃ s, .met s ∈ k.log ∧ ¬ s.InRange
  passed k time := .settled k.last (k.log ++ time.toList.map .waited)
  sends := sends

/-- What happens at a gate. -/
def passage (s : DeskState) : List Incident :=
  .met s :: if s.gate.isOpen s.now then [] else [.waited (s.gate.delay s.now)]

/-- The exchange asks for patience. -/
def asksPatience : Outcome HttpResponse → Bool
  | .ok answer => answer.isThrottled
  | .error _ => false

namespace Rest

/-! ## 3. The steps of an attempt -/

section Steps

variable {α : Type} {sends : Chronicle → HttpRequest → Prop} {post : Chronicle → Outcome α → Prop}
  {next : Trial α} {k : Chronicle}

theorem upholds_orCancelled
    (h : ∀ s : DeskState, k.last ≤ s.nonce.last →
      next.Upholds (watched sends) post (.settled s.nonce.last (k.log ++ [.met s]))) :
    (orCancelled next).Upholds (watched sends) post k := by
  rintro s ⟨hcalm, hlast⟩
  refine ⟨⟨rfl, Nat.le_refl _⟩, ?_⟩
  dsimp only
  rw [if_neg (by simp [hcalm])]
  exact h s hlast

theorem upholds_pause {nanos : Nat}
    (h : next.Upholds (watched sends) post (.settled k.last (k.log ++ [.waited nanos]))) :
    (pause nanos next).Upholds (watched sends) post k := by
  refine ⟨⟨nanos, rfl, h⟩, ?_⟩
  rintro s ⟨hcalm, -⟩ hcancelled
  exact absurd (hcalm.symm.trans hcancelled) Bool.false_ne_true

theorem upholds_passGate
    (h : ∀ s : DeskState, k.last ≤ s.nonce.last →
      next.Upholds (watched sends) post (.settled s.nonce.last (k.log ++ passage s))) :
    (passGate next).Upholds (watched sends) post k := by
  rintro s ⟨-, hlast⟩
  refine ⟨⟨rfl, Nat.le_refl _⟩, ?_⟩
  have hnext : (if s.gate.fits s.now then next else .halt .sum).Upholds (watched sends) post
      (.settled s.nonce.last (k.log ++ passage s)) := by
    split
    · exact h s hlast
    · rename_i hfull
      exact ⟨s, by simp [Chronicle.settled, passage], fun hrange => hfull hrange.1⟩
  unfold passage at hnext
  dsimp only
  split
  · rename_i hopen
    rw [if_pos hopen] at hnext
    exact hnext
  · rename_i hclosed
    rw [if_neg hclosed, List.append_cons] at hnext
    exact upholds_pause hnext

end Steps

/-! ## 4. One attempt -/

/-- An attempt: the states that it met, its request, and the answer. -/
structure Try where
  arrival : DeskState
  passing : DeskState
  stamping : Option DeskState
  request : HttpRequest
  answer : Outcome HttpResponse
  departure : DeskState

/-- The stamp that is taken in a state. -/
def stampIn (s : DeskState) : Nat := s.nonce.stamp s.clock

theorem last_lt_stampIn (s : DeskState) : s.nonce.last < stampIn s :=
  Nat.lt_of_lt_of_le (Nat.lt_succ_self _) (Nat.le_max_right ..)

namespace Try

/-- The stamp, if there is one. -/
def stamp (t : Try) : Nat := (t.stamping.map stampIn).getD 0

/-- What happens at an attempt. -/
def log (t : Try) : List Incident :=
  .met t.arrival :: passage t.passing ++ t.stamping.toList.map .met ++
    [.asked t.request t.answer, .met t.departure]

end Try

section Attempt

variable {r : Rest} {c : Call} {sends : Chronicle → HttpRequest → Prop} {k k' : Chronicle}

/-- A request is ready: it carries the last stamp, which is fresh if one is needed. -/
structure Ready (r : Rest) (c : Call) (k : Chronicle) (stamping : Option DeskState)
    (q : HttpRequest) (k' : Chronicle) : Prop where
  needed : stamping.isSome = true ↔ c.access = .signed
  taken : ∀ s ∈ stamping, k'.last = stampIn s ∧ k'.before < k'.last
  last : k.last ≤ k'.before ∧ k'.before ≤ k'.last
  carries : r.Carries c k'.last q
  log : k'.log = k.log ++ stamping.toList.map .met

theorem upholds_prepare (h : c.Preparable r) (hk : k.before = k.last) :
    (r.prepare c.method c.path (canonicalQuery c.parameters) c.access).Upholds (watched sends)
      (fun k' o => ∃ stamping q, o = .ok q ∧ Ready r c k stamping q k') k := by
  unfold prepare
  by_cases hsigned : c.access = .signed
  · have hsigner : r.signer.isSome = true := h.resolve_left (by simp [hsigned])
    rw [if_pos (by rw [hsigned, hsigner]; decide)]
    rintro s ⟨-, hlast⟩
    have hless := last_lt_stampIn s
    refine ⟨⟨rfl, Nat.le_of_lt hless⟩, ?_⟩
    dsimp only
    unfold Nonce.stamp?
    by_cases hrange : s.nonce.inRange s.clock = true
    · rw [if_pos hrange]
      obtain ⟨q, hq, hcarries⟩ := exists_prepared h (stampIn s)
      refine ⟨some s, q, hq, ?_, ?_, ⟨hlast, Nat.le_of_lt hless⟩, hcarries, rfl⟩
      · simp [hsigned]
      · rintro s' hs'
        obtain rfl := Option.some.inj hs'
        exact ⟨rfl, hless⟩
    · rw [if_neg hrange]
      exact ⟨s, by simp [watched], fun hin => hrange hin.2⟩
  · rw [if_neg (by simp [hsigned])]
    obtain ⟨q, hq, hcarries⟩ := exists_prepared h 0
    refine ⟨none, q, hq, ?_, nofun, ⟨Nat.le_of_eq hk.symm, Nat.le_of_eq hk⟩,
      hcarries.of_ne_signed hsigned, (List.append_nil _).symm⟩
    simp [hsigned]

/-- An attempt that came to its end. -/
structure Attempted (r : Rest) (c : Call) (k : Chronicle) (t : Try) (k' : Chronicle) : Prop where
  needed : t.stamping.isSome = true ↔ c.access = .signed
  fresh : c.access = .signed → k.last < t.stamp ∧ t.stamp ≤ k'.last
  last : k.last ≤ k'.last
  carries : r.Carries c t.stamp t.request
  log : k'.log = k.log ++ t.log
  settled : k'.before = k'.last

/-- **An attempt sends one request**, and ends with its answer. -/
theorem upholds_attempt (h : c.Preparable r)
    (hsends : ∀ k q, r.Carries c k.last q → (c.access = .signed → k.before < k.last) →
      sends k q) :
    (r.attempt c.method c.path (canonicalQuery c.parameters) c.access).Upholds (watched sends)
      (fun k' o => ∃ t : Try, t.answer = o ∧ Attempted r c k t k') k := by
  refine upholds_orCancelled fun arrival harrival => ?_
  refine upholds_passGate fun passing hpassing => ?_
  refine Act.Upholds.andThen ((upholds_prepare h rfl).mono ?_)
  rintro k₁ o ⟨stamping, q, rfl, hready⟩
  have hstamp : c.access = .signed → (stamping.map stampIn).getD 0 = k₁.last ∧
      k₁.before < k₁.last := by
    intro hsigned
    obtain ⟨s, rfl⟩ := Option.isSome_iff_exists.mp (hready.needed.mpr hsigned)
    obtain ⟨hlast, hfresh⟩ := hready.taken s rfl
    exact ⟨hlast.symm, hfresh⟩
  refine ⟨hsends k₁ q hready.carries fun hsigned => (hstamp hsigned).2, fun answer _ => ?_⟩
  refine upholds_orCancelled fun departure hdeparture => ?_
  have hbefore : k.last ≤ k₁.before :=
    Nat.le_trans (Nat.le_trans harrival hpassing) hready.last.1
  refine ⟨⟨arrival, passing, stamping, q, answer, departure⟩, rfl, hready.needed, ?_, ?_, ?_, ?_,
    rfl⟩
  · intro hsigned
    obtain ⟨hlast, hfresh⟩ := hstamp hsigned
    rw [Try.stamp, hlast]
    exact ⟨Nat.lt_of_le_of_lt hbefore hfresh, hdeparture⟩
  · exact Nat.le_trans (Nat.le_trans hbefore hready.last.2) hdeparture
  · by_cases hsigned : c.access = .signed
    · rw [Try.stamp, (hstamp hsigned).1]
      exact hready.carries
    · exact hready.carries.of_ne_signed hsigned
  · simp only [watched, Chronicle.settled, hready.log, Try.log, List.append_assoc, List.cons_append,
      List.nil_append]

end Attempt

/-! ## 5. All attempts -/

/-- What happens at attempts that are a growing pause apart; `number` is the number of the
first. -/
def paced (step : Nat) : (number : Nat) → List Try → List Incident
  | _, [] => []
  | _, [t] => t.log
  | number, t :: ts => t.log ++ .waited (number * step) :: paced step (number + 1) ts

example (step : Nat) (first second third : Try) :
    paced step 1 [first, second, third] = first.log ++ .waited (1 * step) ::
      (second.log ++ .waited (2 * step) :: third.log) := rfl

theorem paced_cons {step number : Nat} {t : Try} {ts : List Try} (h : ts ≠ []) :
    paced step number (t :: ts) =
      t.log ++ .waited (number * step) :: paced step (number + 1) ts := by
  cases ts with
  | nil => contradiction
  | cons second rest => rfl

/-- The attempts at a call, at most `limit` of them, with the last answer.  `since` is the last
stamp before them.

* `again`: all but the last met with a plea for patience;
* `ended`: so did the last only if there are as many as there may be;
* `carries`: each is an attempt at the call, with a stamp of its own;
* `growing`: if there are stamps, each is greater than all before it. -/
structure Tried (r : Rest) (c : Call) (limit since : Nat) (tries : List Try)
    (answer : Outcome HttpResponse) : Prop where
  length_le : tries.length ≤ limit
  again : ∀ t ∈ tries.dropLast, asksPatience t.answer = true
  last : tries.getLast?.map Try.answer = some answer
  ended : asksPatience answer = true → tries.length = limit
  carries : ∀ t ∈ tries, r.Carries c t.stamp t.request
  growing : c.access = .signed → (since :: tries.map Try.stamp).Pairwise (· < ·)

section All

variable {r : Rest} {c : Call} {sends : Chronicle → HttpRequest → Prop} {k k' : Chronicle} {t : Try}
  {tries : List Try} {limit : Nat} {answer : Outcome HttpResponse}

theorem Tried.single (h : Attempted r c k t k')
    (hlimit : asksPatience t.answer = true → limit = 0) :
    Tried r c (limit + 1) k.last [t] t.answer where
  length_le := by simp
  again := by simp
  last := by simp
  ended := fun hasks => by simp [hlimit hasks]
  carries := by simpa using h.carries
  growing := fun hsigned => by simpa using (h.fresh hsigned).1

theorem Tried.ne_nil (h : Tried r c limit k.last tries answer) : tries ≠ [] := by
  rintro rfl
  cases h.last

theorem Tried.cons (h : Attempted r c k t k') (hasks : asksPatience t.answer = true)
    (hrest : Tried r c limit k'.last tries answer) :
    Tried r c (limit + 1) k.last (t :: tries) answer := by
  obtain ⟨second, rest, rfl⟩ := List.exists_cons_of_ne_nil hrest.ne_nil
  refine ⟨Nat.succ_le_succ hrest.length_le, ?_, ?_, ?_, ?_, ?_⟩
  · rw [List.dropLast_cons_cons]
    exact List.forall_mem_cons.mpr ⟨hasks, hrest.again⟩
  · rw [List.getLast?_cons_cons]
    exact hrest.last
  · intro hlast
    rw [List.length_cons, hrest.ended hlast]
  · exact List.forall_mem_cons.mpr ⟨h.carries, hrest.carries⟩
  · intro hsigned
    obtain ⟨hfresh, hbefore⟩ := h.fresh hsigned
    obtain ⟨hsince, hgrowing⟩ := List.pairwise_cons.mp (hrest.growing hsigned)
    have hless : ∀ n ∈ (second :: rest).map Try.stamp, t.stamp < n := fun n hn =>
      Nat.lt_of_le_of_lt hbefore (hsince n hn)
    rw [List.map_cons]
    refine List.pairwise_cons.mpr ⟨List.forall_mem_cons.mpr ⟨hfresh, fun n hn => ?_⟩,
      List.pairwise_cons.mpr ⟨hless, hgrowing⟩⟩
    exact Nat.lt_trans hfresh (hless n hn)

/-- A call that came to its end: what was written down is what happened at its attempts. -/
def Answered (r : Rest) (c : Call) (limit number : Nat) (k k' : Chronicle)
    (answer : Outcome HttpResponse) : Prop :=
  ∃ tries, k'.log = k.log ++ paced r.retry.step.toNanos number tries ∧
    Tried r c limit k.last tries answer

/-- **Attempts are made until the exchange does not ask for patience**, or there are no further
ones.  The induction is on the number of those that are left. -/
theorem upholds_attempts (h : c.Preparable r)
    (hsends : ∀ k q, r.Carries c k.last q → (c.access = .signed → k.before < k.last) →
      sends k q) (left number : Nat) (k : Chronicle) :
    (r.attempts c.method c.path (canonicalQuery c.parameters) c.access left number).Upholds
      (watched sends) (Answered r c (left + 1) number k) k := by
  induction left generalizing number k with
  | zero =>
    refine (upholds_attempt h hsends).mono ?_
    rintro k' o ⟨t, rfl, ht⟩
    exact ⟨[t], ht.log, .single ht fun _ => rfl⟩
  | succ left ih =>
    refine Act.Upholds.andThen ((upholds_attempt h hsends).mono ?_)
    rintro k₁ o ⟨t, rfl, ht⟩
    have hdone : asksPatience t.answer = false →
        Answered r c (left + 1 + 1) number k k₁ t.answer := by
      intro hasks
      refine ⟨[t], ht.log, .single ht fun hasks' => ?_⟩
      exact absurd (hasks.symm.trans hasks') Bool.false_ne_true
    cases hanswer : t.answer with
    | error e =>
      rw [hanswer] at hdone
      exact hdone rfl
    | ok a =>
      rw [hanswer] at hdone
      dsimp only
      split
      · rename_i hasks
        refine upholds_pause ((ih (number + 1) _).mono ?_)
        rintro k' o ⟨tries, hlog, htried⟩
        refine ⟨t :: tries, ?_, .cons ht (by rw [hanswer]; exact hasks) htried⟩
        rw [hlog, paced_cons htried.ne_nil]
        simp only [Chronicle.settled, ht.log, List.append_assoc, List.cons_append, List.nil_append]
      · rename_i hasks
        exact hdone (Bool.eq_false_iff.mpr hasks)

/-- **A call is answered within the attempts that the settings allow.** -/
theorem upholds_execute (h : c.Preparable r) (hfits : r.retry.fits = true)
    (hattempts : 1 ≤ r.retry.attempts)
    (hsends : ∀ k q, r.Carries c k.last q → (c.access = .signed → k.before < k.last) →
      sends k q) (k : Chronicle) :
    (c.deed r).Upholds (watched sends) (Answered r c r.retry.attempts 1 k) k := by
  rw [Call.deed, execute, if_pos hfits]
  have hall := upholds_attempts h hsends (r.retry.attempts - 1) 1 k
  rw [Nat.sub_add_cancel hattempts] at hall
  exact hall

end All

end Rest
end OrderDesk
