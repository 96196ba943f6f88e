import Mathlib.Data.List.Basic
import OrderDesk.Client.Orders
import OrderDesk.Proofs.Rest.Retry

/-!
# What is made of the last answer

Whoever sends a request goes on with its last answer.  Most read a value from it: that the exchange
is still asking for patience is reported just where it did so at every attempt that the settings
allow, and the report says how many there were (`upholds_read`).  An order is placed with a `POST`,
after a question about the price if need be; while an order is on its way it is sent once more only
where the exchange asked for patience (`upholds_placeOrder`).
-/

namespace OrderDesk

/-! ## 1. Reading -/

namespace Rest

section Reading

variable {α : Type} {r : Rest} {c : Call} {limit since : Nat} {tries : List Try}
  {answer : Outcome HttpResponse} {decode : Json → Decoded α}

/-- The last answer asks for patience just where all of them do and nothing is left to try. -/
theorem Tried.asksPatience_iff (h : Tried r c limit since tries answer) :
    asksPatience answer = true ↔
      tries.length = limit ∧ ∀ t ∈ tries, asksPatience t.answer = true := by
  obtain ⟨t, hlast, rfl⟩ := Option.map_eq_some_iff.mp h.last
  have hsplit : tries = tries.dropLast ++ [t] := (List.dropLast_append_getLast? t hlast).symm
  constructor
  · intro hasks
    refine ⟨h.ended hasks, fun t' ht' => ?_⟩
    rw [hsplit] at ht'
    obtain ht' | ht' := List.mem_append.mp ht'
    · exact h.again t' ht'
    · obtain rfl := List.mem_singleton.mp ht'
      exact hasks
  · rintro ⟨-, hall⟩
    exact hall t (List.mem_of_getLast? hlast)

theorem decode_eq_throttled_iff {a : HttpResponse} {attempts n : Nat} {body : String} :
    a.decode attempts decode = .error (.throttled n body) ↔
      a.isThrottled = true ∧ n = attempts ∧ a.body = body := by
  unfold HttpResponse.decode
  split
  · rename_i hthrottled
    simp [hthrottled, eq_comm]
  · rename_i hthrottled
    split
    · simp [hthrottled]
    · split <;> simp [hthrottled]

/-- A call whose answer is read. -/
def Call.read (r : Rest) (c : Call) (decode : Json → Decoded α) : Trial α :=
  r.request c.method c.path c.parameters c.access decode

/-- A call whose answer was read came to its end.  That the exchange still asks for patience is
reported just where it did so at every attempt, unless the network itself says so. -/
def Reported (r : Rest) (c : Call) (decode : Json → Decoded α) (k k' : Chronicle) (o : Outcome α) :
    Prop :=
  ∃ tries answer, k'.log = k.log ++ paced r.retry.step.toNanos 1 tries ∧
    Tried r c r.retry.attempts k.last tries answer ∧
    o = answer.bind (fun a => a.decode r.retry.attempts decode) ∧
    ∀ n body, o = .error (.throttled n body) ↔
      (n = tries.length ∧ tries.length = r.retry.attempts ∧
        (∀ t ∈ tries, asksPatience t.answer = true) ∧ answer.map HttpResponse.body = .ok body) ∨
      answer = .error (.throttled n body)

theorem reported_of_answered {k k' : Chronicle} (h : Answered r c r.retry.attempts 1 k k' answer) :
    Reported r c decode k k' (answer.bind fun a => a.decode r.retry.attempts decode) := by
  obtain ⟨tries, hlog, htried⟩ := h
  refine ⟨tries, answer, hlog, htried, rfl, fun n body => ?_⟩
  have hasks := htried.asksPatience_iff
  cases answer with
  | error e => simp [Except.bind, Except.map]
  | ok a =>
    simp only [Except.bind, decode_eq_throttled_iff, Except.map, Except.ok.injEq, reduceCtorEq,
      or_false]
    rw [show a.isThrottled = asksPatience (.ok a) from rfl, hasks]
    constructor
    · rintro ⟨⟨hlength, hall⟩, rfl, hbody⟩
      exact ⟨hlength.symm, hlength, hall, hbody⟩
    · rintro ⟨rfl, hlength, hall, hbody⟩
      exact ⟨⟨hlength, hall⟩, hlength, hbody⟩

/-- **A value is read from the last answer**, and the end of patience is reported as it is. -/
theorem upholds_read {sends : Chronicle → HttpRequest → Prop} (h : c.Preparable r)
    (hfits : r.retry.fits = true) (hattempts : 1 ≤ r.retry.attempts)
    (hsends : ∀ k q, r.Carries c k.last q → (c.access = .signed → k.before < k.last) →
      sends k q) (k : Chronicle) :
    (c.read r decode).Upholds (watched sends) (Reported r c decode k) k := by
  refine Act.Upholds.andThen ((upholds_execute h hfits hattempts hsends k).mono ?_)
  intro k' answer hanswer
  have hreported : Reported r c decode k k'
      (answer.bind fun a => a.decode r.retry.attempts decode) := reported_of_answered hanswer
  cases answer with
  | ok a => exact hreported
  | error e => exact hreported

end Reading
end Rest

/-! ## 2. Placing orders -/

/-- The answers to what was posted. -/
def posts : List Incident → List (Outcome HttpResponse) :=
  List.filterMap fun
    | .asked q o => if q.method = "POST" then some o else none
    | .met _ | .waited _ => none

theorem posts_append (log log' : List Incident) : posts (log ++ log') = posts log ++ posts log' :=
  List.filterMap_append

namespace Rest

theorem posts_log (t : Try) :
    posts t.log = if t.request.method = "POST" then [t.answer] else [] := by
  have hpassage : posts (passage t.passing) = [] := by
    unfold passage
    split <;> rfl
  have hstamping : posts (t.stamping.toList.map .met) = [] := by
    cases t.stamping <;> rfl
  rw [Try.log, ← List.singleton_append, posts_append, posts_append, posts_append, hpassage,
    hstamping]
  by_cases hpost : t.request.method = "POST"
  · simp [posts, hpost]
  · simp [posts, hpost]

/-- What is posted at attempts are the attempts, or nothing at all. -/
theorem posts_paced {method : String} {step number : Nat} {tries : List Try}
    (h : ∀ t ∈ tries, t.request.method = method) :
    posts (paced step number tries) =
      if method = "POST" then tries.map Try.answer else [] := by
  induction tries generalizing number with
  | nil => simp [paced, posts]
  | cons t ts ih =>
    obtain ⟨hfirst, hrest⟩ := List.forall_mem_cons.mp h
    have hlog : posts t.log = if method = "POST" then [t.answer] else [] := by
      rw [posts_log, hfirst]
    by_cases hts : ts = []
    · subst hts
      exact hlog
    · rw [paced_cons hts, posts_append, hlog]
      have hwaited : posts (.waited (number * step) :: paced step (number + 1) ts) =
          posts (paced step (number + 1) ts) := rfl
      rw [hwaited, ih hrest]
      split <;> rfl

end Rest

/-- What was posted was posted again only after a plea for patience, and no more than so often. -/
def Patient (limit : Nat) (log : List Incident) : Prop :=
  (posts log).length ≤ limit ∧ ∀ o ∈ (posts log).dropLast, asksPatience o = true

namespace Client

variable {c : Client} {k k' k'' : Chronicle}

/-- Something was done that posted nothing. -/
def Unposted (k k' : Chronicle) : Prop := ∃ tail, k'.log = k.log ++ tail ∧ posts tail = []

/-- An order was on its way, after what posted nothing. -/
def Delivered (c : Client) (k k' : Chronicle) : Prop :=
  ∃ tail, k'.log = k.log ++ tail ∧ Patient c.retry.attempts tail

theorem Unposted.refl (k : Chronicle) : Unposted k k := ⟨[], (List.append_nil _).symm, rfl⟩

theorem Delivered.refl (k : Chronicle) : c.Delivered k k :=
  ⟨[], (List.append_nil _).symm, Nat.zero_le _, nofun⟩

theorem Unposted.trans_delivered (h : Unposted k k') (h' : c.Delivered k' k'') :
    c.Delivered k k'' := by
  obtain ⟨tail, hlog, hposts⟩ := h
  obtain ⟨tail', hlog', hpatient⟩ := h'
  refine ⟨tail ++ tail', by rw [hlog', hlog, List.append_assoc], ?_⟩
  rw [Patient, posts_append, hposts]
  exact hpatient

theorem Delivered.trans_unposted (h : c.Delivered k k') (h' : Unposted k' k'') :
    c.Delivered k k'' := by
  obtain ⟨tail, hlog, hpatient⟩ := h
  obtain ⟨tail', hlog', hposts⟩ := h'
  refine ⟨tail ++ tail', by rw [hlog', hlog, List.append_assoc], ?_⟩
  rw [Patient, posts_append, hposts, List.append_nil]
  exact hpatient

theorem Unposted.delivered (h : Unposted k k') : c.Delivered k k' :=
  h.trans_delivered (.refl k')

/-- Everything is written down, and any request may be sent. -/
abbrev anything : Watch DeskState Chronicle := watched fun _ _ => True

theorem upholds_price (hfits : c.retry.fits = true) (hattempts : 1 ≤ c.retry.attempts)
    (symbol : String) (k : Chronicle) :
    (c.price symbol).Upholds anything (fun k' _ => Unposted k k') k := by
  let call : Rest.Call := ⟨"GET", c.surface.pricePath, [("symbol", symbol)], .open⟩
  have hread : (call.read c.toRest (Json.decodeUntyped 0)).Upholds anything
      (Rest.Reported c.toRest call (Json.decodeUntyped 0) k) k :=
    Rest.upholds_read (.inl rfl) hfits hattempts (fun _ _ _ _ => trivial) k
  refine Act.Upholds.andThen (hread.mono ?_)
  rintro k' o ⟨tries, answer, hlog, htried, -⟩
  have hmethod : ∀ t ∈ tries, t.request.method = "GET" := fun t ht => (htried.carries t ht).method
  have hunposted : Unposted k k' := ⟨_, hlog, Rest.posts_paced hmethod⟩
  cases o with
  | error e => exact hunposted
  | ok j =>
    dsimp only
    split
    · exact hunposted
    · exact hunposted

theorem upholds_reference (hfits : c.retry.fits = true) (hattempts : 1 ≤ c.retry.attempts)
    (o : Order) (symbol : String) (known : Option Decimal) (k : Chronicle) :
    (c.reference o symbol known).Upholds anything (fun k' _ => Unposted k k') k := by
  have hnothing : Unposted k k := ⟨[], (List.append_nil _).symm, rfl⟩
  unfold reference
  split
  · split
    · exact hnothing
    · refine Act.Upholds.andThen ((upholds_price hfits hattempts symbol k).mono ?_)
      intro k' price hprice
      cases price with
      | ok p => exact hprice
      | error e => exact hprice
  · exact hnothing

theorem upholds_submit (hsigner : c.signer.isSome = true) (hfits : c.retry.fits = true)
    (hattempts : 1 ≤ c.retry.attempts) (path : String) (ps : Parameters) (k : Chronicle) :
    (c.submit "POST" path ps).Upholds anything (fun k' _ => c.Delivered k k') k := by
  let call : Rest.Call := ⟨"POST", path, ps, .signed⟩
  refine Act.Upholds.andThen ((Rest.upholds_execute (c := call) (.inr hsigner) hfits hattempts
    (fun _ _ _ _ => trivial) k).mono ?_)
  rintro k' answer ⟨tries, hlog, htried⟩
  have hmethod : ∀ t ∈ tries, t.request.method = "POST" := fun t ht => (htried.carries t ht).method
  have hposts : posts (Rest.paced c.retry.step.toNanos 1 tries) = tries.map Rest.Try.answer :=
    Rest.posts_paced hmethod
  have hdelivered : c.Delivered k k' := by
    refine ⟨_, hlog, ?_, ?_⟩
    · rw [hposts, List.length_map]
      exact htried.length_le
    · rw [hposts, ← List.map_dropLast]
      exact List.forall_mem_map.mpr htried.again
  cases answer with
  | ok a => exact hdelivered
  | error e => exact hdelivered

/-- What the host is told posts nothing. -/
theorem upholds_modify {f : DeskState → DeskState} (hcancelled : ∀ s, (f s).cancelled = s.cancelled)
    (hnonce : ∀ s, (f s).nonce = s.nonce) (k : Chronicle) :
    (Act.modify f).Upholds anything (fun k' _ => Unposted k k') k := by
  rintro s -
  have hlast : s.nonce.last = (f s).nonce.last := by rw [hnonce]
  exact ⟨⟨hcancelled s, Nat.le_of_eq hlast⟩, [.met s], rfl, rfl⟩

/-- **An order is sent once more only after a plea for patience**, whatever else has to be asked
to place it. -/
theorem upholds_placeOrder (hsigner : c.signer.isSome = true) (hfits : c.retry.fits = true)
    (hattempts : 1 ≤ c.retry.attempts) (o : Order) (known : Option Decimal) (k : Chronicle) :
    (c.placeOrder o known).Upholds anything (fun k' _ => c.Delivered k k') k := by
  unfold placeOrder
  cases c.listing.wireSymbol o.instrument with
  | error e => exact Delivered.refl k
  | ok symbol =>
  rw [Act.ofOutcome_ok_andThen]
  refine Act.Upholds.andThen ((upholds_reference hfits hattempts o symbol known k).mono ?_)
  intro k₁ reference hreference
  cases reference with
  | error e => exact hreference.delivered
  | ok reference =>
  dsimp only
  cases OrderRequest.build c.surface o symbol reference with
  | error e => exact hreference.delivered
  | ok request =>
  rw [Act.ofOutcome_ok_andThen]
  refine Act.Upholds.andThen ((upholds_submit hsigner hfits hattempts request.path
    request.parameters k₁).mono ?_)
  intro k₂ verdict hverdict
  have hdelivered : c.Delivered k k₂ := hreference.trans_delivered hverdict
  -- what is left to do is to tell the host
  have htold : ∀ {x : Deed Unit} {report : Outcome (Option String)},
      x.Upholds anything (fun k₃ _ => Unposted k₂ k₃) k₂ →
      (x.bind fun _ => .done report).Upholds anything (fun k' _ => c.Delivered k k') k₂ :=
    fun h => (Act.upholds_bind _ _).mpr (h.mono fun k₃ _ h₃ => hdelivered.trans_unposted h₃)
  cases verdict with
  | error e => exact hdelivered
  | ok verdict =>
  cases verdict with
  | rejected cause => exact htold (upholds_modify (fun _ => rfl) (fun _ => rfl) k₂)
  | accepted body =>
  dsimp only
  cases acknowledged body with
  | error e => exact hdelivered
  | ok placed =>
  rw [Act.ofOutcome_ok_andThen]
  exact htold (upholds_modify (fun _ => rfl) (fun _ => rfl) k₂)

end Client
end OrderDesk
