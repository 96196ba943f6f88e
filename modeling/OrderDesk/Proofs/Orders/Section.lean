import OrderDesk.Proofs.Orders.Crew
import OrderDesk.Proofs.Rest

/-!
# Work under the lock

A member that has the lock knows what it asked of the exchange, what it told the host, and which
orders the desk keeps: nobody else changes these while the lock is held (`underLock`).  Everything
else may change between any two steps, any answer may come, and cancellation may strike.

Whatever happens, a piece of work comes to its end with one of a few results, or breaks down before
it changed anything (`OrderCall.ensures_work`).
-/

namespace OrderDesk.Orders

/-- What a member with the lock knows. -/
structure Section where
  asked : List (HttpRequest × Outcome HttpResponse)
  told : List Event
  fills : Fills

/-- The company of a member with the lock; `f` are the orders that were kept when it took the
lock. -/
def underLock (f : Fills) : Company DeskState Section where
  meets k s := s.fills = k.fills ∧ s.host.OneId
  answers _ _ := True
  allows s s' := s'.orderLock = s.orderLock ∧ s'.host = s.host ∧ s.events <+: s'.events
  changed k s s' := ⟨k.asked, k.told ++ s'.events.drop s.events.length, s'.fills⟩
  heard k r o := ⟨k.asked ++ [(r, o)], k.told, k.fills⟩
  halfway k := k.fills = f

/-- What a request changes on its way does not concern a member with the lock. -/
theorem lenient_underLock (f : Fills) : (underLock f).Lenient where
  allows := fun _ _ _ => ⟨rfl, rfl, List.prefix_refl _⟩
  changed := by
    rintro k s ⟨hkept, -⟩ gate nonce
    simp only [underLock, List.drop_length, List.append_nil, hkept]

variable {f : Fills} {k : Section}

/-! ## 1. Requests -/

/-- What an answer has to do with what was asked: it is the answer to a request with this verb. -/
def Answered (method : String) (k : Section) (o : Outcome HttpResponse) : Prop :=
  ∀ a, o = .ok a → ∃ r, (r, .ok a) ∈ k.asked ∧ r.method = method

/-- `k'` is what a member knows that knew `k` and asked some more. -/
def Section.AskedMore (k k' : Section) : Prop := k'.told = k.told ∧ k'.fills = k.fills

theorem Section.AskedMore.refl (k : Section) : k.AskedMore k := ⟨rfl, rfl⟩

/-- Sending a request changes nothing but what was asked, however often it is sent; its answer is one
of those that came. -/
theorem way_underLock (method : String) (hk : k.fills = f) :
    Rest.Way (underLock f) method (fun k' => k.AskedMore k')
      (fun k' o => k.AskedMore k' ∧ Answered method k' o) where
  lenient := lenient_underLock f
  halfway := fun hmore => hmore.2.trans hk
  failed := fun hmore _ => ⟨hmore, nofun⟩
  again := fun hmore _ _ _ => hmore
  answered := by
    rintro k' q o hmore hmethod -
    refine ⟨hmore, ?_⟩
    rintro a rfl
    exact ⟨q, List.mem_append_right _ List.mem_cons_self, hmethod⟩
  cancelled := fun hmore _ _ _ _ => ⟨hmore, nofun⟩

/-! ## 2. Orders in any company -/

section Company

open Client (Verdict verdict)

variable {κ : Type} {C : Company DeskState κ} {before : κ → Prop}
  {post : κ → Outcome HttpResponse → Prop} {k : κ} {c : Client}

theorem ensures_submit_of {method : String} {final : κ → Outcome Verdict → Prop}
    (h : Rest.Way C method before post) (path : String) (ps : Parameters) (hk : before k)
    (hfinal : ∀ k o, post k o → final k (o.bind (verdict c.retry.attempts))) :
    (c.submit method path ps).Ensures C final k := by
  refine Act.Ensures.andThen ((h.ensures_execute c.toRest path ps .signed hk).mono ?_)
  intro k' o hpost
  have hverdict := hfinal k' o hpost
  cases o with
  | error e => exact hverdict
  | ok a => exact hverdict

/-- Asking for a reference price is no more than asking. -/
theorem ensures_reference_of (h : Rest.Way C "GET" before fun k' _ => before k') (o : Order)
    (symbol : String) (known : Option Decimal) (hk : before k) :
    (c.reference o symbol known).Ensures C (fun k' _ => before k') k := by
  unfold Client.reference
  split
  · split
    · exact hk
    · refine Act.Ensures.andThen (Act.Ensures.andThen (Act.Ensures.andThen
        ((h.ensures_execute c.toRest _ _ .open hk).mono ?_)))
      intro k' o hk'
      cases o with
      | error e => exact hk'
      | ok a =>
        show Act.Ensures _ _ (Act.ofOutcome _) k'
        cases a.decode c.retry.attempts (Json.decodeUntyped 0) with
        | error e => exact hk'
        | ok j =>
          simp only [Act.ofOutcome, Act.Ensures]
          cases Wire.lastPrice (Client.firstItem j) with
          | error m => exact hk'
          | ok p => exact hk'
  · exact hk

/-- What is made of a verdict on an order that was sent. -/
def settle (o : Order) : Verdict → Trial (Option String)
  | .accepted body =>
    (Act.ofOutcome (Client.acknowledged body)).andThen fun placed =>
      (Client.reportAccepted o placed.id).bind fun _ => .ok (some placed.id)
  | .rejected cause => (Client.reportRejected o cause).bind fun _ => .ok none

/-- **To place an order** is to ask for a price if need be, to send the order, and to settle what
came back. -/
theorem ensures_placeOrder_of {final : κ → Outcome (Option String) → Prop}
    (hget : Rest.Way C "GET" before fun k' _ => before k') (hpost : Rest.Way C "POST" before post)
    (o : Order) (known : Option Decimal) (hk : before k)
    (hfailed : ∀ k e, before k → final k (.error e))
    (hsettle : ∀ k answer, post k answer →
      match answer.bind (verdict c.retry.attempts) with
      | .ok v => (settle o v).Ensures C final k
      | .error e => final k (.error e)) :
    (c.placeOrder o known).Ensures C final k := by
  unfold Client.placeOrder
  cases c.listing.wireSymbol o.instrument with
  | error e => exact hfailed k e hk
  | ok symbol =>
  rw [Act.ofOutcome_ok_andThen]
  refine Act.Ensures.andThen ((ensures_reference_of hget o symbol known hk).mono ?_)
  intro k₁ reference hk₁
  cases reference with
  | error e => exact hfailed k₁ e hk₁
  | ok reference =>
  dsimp only
  cases OrderRequest.build c.surface o symbol reference with
  | error e => exact hfailed k₁ e hk₁
  | ok request =>
  rw [Act.ofOutcome_ok_andThen]
  refine Act.Ensures.andThen (ensures_submit_of hpost _ _ hk₁ ?_)
  intro k₂ answer hanswer
  have hsettled := hsettle k₂ answer hanswer
  cases hverdict : answer.bind (verdict c.retry.attempts) with
  | error e =>
    rw [hverdict] at hsettled
    exact hsettled
  | ok v =>
    rw [hverdict] at hsettled
    cases v <;> exact hsettled

end Company

/-! ## 3. Orders under the lock -/

/-- The ids that the exchange gave to orders: those in its answers to accepted orders. -/
def assignedIds (asked : List (HttpRequest × Outcome HttpResponse)) : List String :=
  asked.filterMap fun
    | (r, .ok a) =>
      if r.method = "POST" ∧ a.isSuccess = true then
        (Client.acknowledged a.body).toOption.map (·.id)
      else none
    | (_, .error _) => none

theorem mem_assignedIds {asked : List (HttpRequest × Outcome HttpResponse)} {r : HttpRequest}
    {a : HttpResponse} {w : WireOrder} (hmem : (r, .ok a) ∈ asked) (hpost : r.method = "POST")
    (hsuccess : a.isSuccess = true) (hw : Client.acknowledged a.body = .ok w) :
    w.id ∈ assignedIds asked := by
  refine List.mem_filterMap.mpr ⟨_, hmem, ?_⟩
  dsimp only
  rw [if_pos ⟨hpost, hsuccess⟩, hw]
  rfl

theorem isSuccess_of_verdict {attempts : Nat} {a : HttpResponse} {body : String}
    (h : Client.verdict attempts a = .ok (.accepted body)) :
    a.isSuccess = true ∧ a.body = body := by
  unfold Client.verdict at h
  split at h
  · rename_i hsuccess
    cases h
    exact ⟨hsuccess, rfl⟩
  · dsimp only at h
    split at h <;> split at h <;> cases h

/-- **A verdict of acceptance is an answer of the exchange.** -/
theorem ensures_submit (c : Client) (method path : String) (ps : Parameters) (hk : k.fills = f) :
    (c.submit method path ps).Ensures (underLock f)
      (fun k' o => k.AskedMore k' ∧ ∀ body, o = .ok (.accepted body) →
        ∃ r a, (r, .ok a) ∈ k'.asked ∧ r.method = method ∧ a.isSuccess = true ∧ a.body = body)
      k := by
  refine ensures_submit_of (way_underLock method hk) path ps (.refl k) ?_
  rintro k' o ⟨hmore, hanswered⟩
  cases o with
  | error e => exact ⟨hmore, nofun⟩
  | ok a =>
    refine ⟨hmore, ?_⟩
    intro body hbody
    obtain ⟨hsuccess, hsame⟩ := isSuccess_of_verdict hbody
    obtain ⟨r, hmem, hmethod⟩ := hanswered a rfl
    exact ⟨r, a, hmem, hmethod, hsuccess, hsame⟩

/-- The results of placing an order: the exchange accepted it and gave an id to it, and the host
was told; or nothing changed. -/
def AfterPlacing (f : Fills) (o : Order) (k : Section) (result : Outcome (Option String)) : Prop :=
  k.fills = f ∧ ∀ b, result = .ok (some b) → b ∈ assignedIds k.asked ∧
    ∃ time, k.told = [.orderIds o.id [b], .order (.ofStatus o .submitted "" time)]

theorem ensures_placeOrder (c : Client) (o : Order) (known : Option Decimal)
    (hk : k = ⟨[], [], f⟩) :
    (c.placeOrder o known).Ensures (underLock f) (AfterPlacing f o) k := by
  have hfills : k.fills = f := by rw [hk]
  have hway := fun method => way_underLock (f := f) (k := k) method hfills
  refine ensures_placeOrder_of ((hway "GET").weaken fun _ _ => And.left) (hway "POST") o known
    (.refl k) (fun k' e hmore => ⟨hmore.2.trans hfills, nofun⟩) ?_
  rintro k' answer ⟨⟨htold, hfills'⟩, hanswered⟩
  have hfills' : k'.fills = f := hfills'.trans hfills
  have htold : k'.told = [] := by rw [htold, hk]
  cases answer with
  | error e => exact ⟨hfills', nofun⟩
  | ok a =>
  show match Client.verdict c.retry.attempts a with
    | .ok v => (settle o v).Ensures (underLock f) (AfterPlacing f o) k'
    | .error e => AfterPlacing f o k' (.error e)
  cases hverdict : Client.verdict c.retry.attempts a with
  | error e => exact ⟨hfills', nofun⟩
  | ok verdict =>
  cases verdict with
  | rejected cause =>
    rintro s ⟨hkept, -⟩
    refine ⟨⟨rfl, rfl, ?_⟩, hkept.trans hfills', nofun⟩
    exact ⟨_, (List.append_assoc ..).symm⟩
  | accepted body =>
  obtain ⟨hsuccess, rfl⟩ := isSuccess_of_verdict hverdict
  dsimp only [settle]
  cases hplaced : Client.acknowledged a.body with
  | error e => exact ⟨hfills', nofun⟩
  | ok placed =>
  rw [Act.ofOutcome_ok_andThen]
  rintro s ⟨hkept, -⟩
  refine ⟨⟨rfl, rfl, ⟨_, (List.append_assoc ..).symm⟩⟩, hkept.trans hfills', ?_⟩
  intro b hb
  obtain rfl : placed.id = b := Option.some.inj (Except.ok.inj hb)
  obtain ⟨r, hmem, hmethod⟩ := hanswered a rfl
  refine ⟨mem_assignedIds hmem hmethod hsuccess hplaced, s.instant, ?_⟩
  show k'.told ++ (s.events ++ _ ++ _).drop s.events.length = _
  rw [htold, List.append_assoc, List.drop_left]
  rfl

theorem ensures_cancelOrder (c : Client) (o : Order) (hk : k.fills = f) :
    (c.cancelOrder o).Ensures (underLock f) (fun k' _ => k'.fills = f) k := by
  unfold Client.cancelOrder
  cases c.cancellation o with
  | error e => exact hk
  | ok target =>
    rw [Act.ofOutcome_ok_andThen]
    refine Act.Ensures.andThen ((ensures_submit c "DELETE" target.1 target.2 hk).mono ?_)
    rintro k₁ verdict ⟨hmore, -⟩
    have hfills : k₁.fills = f := hmore.2.trans hk
    cases verdict with
    | error e => exact hfills
    | ok verdict =>
      cases verdict with
      | accepted body =>
        rintro s ⟨hkept, -⟩
        exact ⟨⟨rfl, rfl, ⟨_, rfl⟩⟩, hkept.trans hfills⟩
      | rejected cause =>
        rintro s ⟨hkept, -⟩
        exact ⟨⟨rfl, rfl, ⟨_, rfl⟩⟩, hkept.trans hfills⟩

/-! ## 4. What a call does -/

/-- What a call does to the orders that are kept, what it tells the host, and its report. -/
def OrderCall.Does (f : Fills) (k : Section) : OrderCall → Report → Prop
  | .place o, .placed answer =>
    (answer ≠ .ok true ∧ k.fills = f) ∨
    (answer = .ok true ∧ ∃ b, k.fills = f.track b o ∧ b ∈ assignedIds k.asked ∧
      ∃ time, k.told = [.orderIds o.id [b], .order (.ofStatus o .submitted "" time)])
  | .cancel o, .canceled answer =>
    (answer ≠ .ok true ∧ k.fills = f) ∨ (answer = .ok true ∧ k.fills = f.forget o.brokerIds)
  | .fill e, .matched event =>
    ∃ host : Host, host.OneId ∧ f.reconcile host.orderOf e = (event, k.fills) ∧
      k.told = (event.map Event.order).toList
  | _, _ => False

/-- **What a call does under the lock**, whatever happens meanwhile. -/
theorem OrderCall.ensures_work (d : Desk) (c : OrderCall) :
    (c.work d).Ensures (underLock f) (fun k report => c.Does f k report) ⟨[], [], f⟩ := by
  cases c with
  | place o =>
    refine (Act.ensures_bind _ _).mpr
      ((lenient_underLock f).access (fun s => ⟨s.gate, s.nonce, rfl⟩) ?_)
    intro s _
    refine Act.Ensures.andThen ((ensures_placeOrder d.toClient o _ rfl).mono ?_)
    rintro k result ⟨hfills, hplaced⟩
    cases result with
    | error e => exact Or.inl ⟨nofun, hfills⟩
    | ok id =>
      cases id with
      | none => exact Or.inl ⟨nofun, hfills⟩
      | some b =>
        obtain ⟨hassigned, time, htold⟩ := hplaced b rfl
        rintro t ⟨hkept, -⟩
        refine ⟨⟨rfl, rfl, List.prefix_refl _⟩, Or.inr ⟨rfl, b, ?_, hassigned, time, ?_⟩⟩
        · show Fills.track t.fills b o = f.track b o
          rw [hkept, hfills]
        · show k.told ++ t.events.drop t.events.length = _
          rw [List.drop_length, List.append_nil, htold]
  | cancel o =>
    refine (Act.ensures_bind _ _).mpr (Act.Ensures.andThen
      ((ensures_cancelOrder (k := ⟨[], [], f⟩) d.toClient o rfl).mono ?_))
    rintro k result hfills
    cases result with
    | error e => exact Or.inl ⟨nofun, hfills⟩
    | ok agreed =>
      cases agreed with
      | false => exact Or.inl ⟨nofun, hfills⟩
      | true =>
        rintro t ⟨hkept, -⟩
        refine ⟨⟨rfl, rfl, List.prefix_refl _⟩, Or.inr ⟨rfl, ?_⟩⟩
        show Fills.forget t.fills o.brokerIds = f.forget o.brokerIds
        rw [hkept, hfills]
  | fill e =>
    refine (Act.ensures_bind _ _).mpr ?_
    rintro s ⟨hkept, hhost⟩
    have hkept : s.fills = f := hkept
    dsimp only
    rw [hkept]
    cases hresult : f.reconcile s.host.orderOf e with
    | mk event fills =>
      cases event with
      | none =>
        refine ⟨⟨rfl, rfl, List.prefix_refl _⟩, s.host, hhost, hresult, ?_⟩
        show [] ++ s.events.drop s.events.length = []
        rw [List.drop_length]
        rfl
      | some event =>
        refine ⟨⟨rfl, rfl, ⟨_, rfl⟩⟩, s.host, hhost, hresult, ?_⟩
        show [] ++ (s.events ++ [Event.order event]).drop s.events.length = [Event.order event]
        rw [List.drop_left]
        rfl

end OrderDesk.Orders
