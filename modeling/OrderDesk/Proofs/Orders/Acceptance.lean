import OrderDesk.Proofs.Orders.Documents
import OrderDesk.Proofs.Orders.Tracking

/-!
# Accepted orders

The exchange accepts an order with an answer whose status says so, and whose body describes the
order.  What follows depends on the body as well: the order is noted, and the host is told, just
where the description is complete (`DocumentShape.Complete`).  An acknowledgement that has the id of
the order but lacks its quantity, its state, its type or its side is a failure: the order is live at
the exchange, and neither the host nor the desk knows its id.  (A cancellation, by contrast, is
taken for granted whatever the body says.)

This is so whatever happens while the order is on its way.  If the desk may be cancelled meanwhile,
the answer may also get lost altogether (`mayCancel`).
-/

namespace OrderDesk.Orders

open OrderDesk.Json

/-! ## 1. Accepted orders -/

/-- The company of a member with the lock, where the desk is cancelled only if that may be. -/
def accepting (mayCancel : Bool) (f : Fills) : Company DeskState Section :=
  { underLock f with
    meets := fun k s => (underLock f).meets k s ∧ (s.cancelled = true → mayCancel = true) }

theorem lenient_accepting (mayCancel : Bool) (f : Fills) : (accepting mayCancel f).Lenient where
  allows := fun h => (lenient_underLock f).allows h.1
  changed := fun h => (lenient_underLock f).changed h.1

/-- The exchange accepted an order with this body. -/
def Accepted (asked : List (HttpRequest × Outcome HttpResponse)) (body : String) : Prop :=
  ∃ q a, (q, .ok a) ∈ asked ∧ q.method = "POST" ∧ a.isSuccess = true ∧ a.body = body

variable {mayCancel : Bool} {f : Fills} {k : Section} {o : Order} {body : String}

/-- A member with the lock sent no order so far that was accepted. -/
structure Pending (f : Fills) (k : Section) : Prop where
  told : k.told = []
  fills : k.fills = f
  none : ∀ body, ¬ Accepted k.asked body

/-- A member with the lock has a last answer: if an order was accepted, this is the answer, or it
got lost. -/
structure Returned (mayCancel : Bool) (f : Fills) (k : Section) (o : Outcome HttpResponse) :
    Prop where
  told : k.told = []
  fills : k.fills = f
  accepted : ∀ body, Accepted k.asked body →
    (∃ a, o = .ok a ∧ a.isSuccess = true ∧ a.body = body) ∨
      mayCancel = true ∧ o = .error .cancelled

theorem accepted_snoc {asked : List (HttpRequest × Outcome HttpResponse)} {q : HttpRequest}
    {answer : Outcome HttpResponse} (h : Accepted (asked ++ [(q, answer)]) body) :
    Accepted asked body ∨
      q.method = "POST" ∧ ∃ a, answer = .ok a ∧ a.isSuccess = true ∧ a.body = body := by
  obtain ⟨q', a, hmem, hpost, hsuccess, hbody⟩ := h
  rcases List.mem_append.mp hmem with hmem | hmem
  · exact Or.inl ⟨q', a, hmem, hpost, hsuccess, hbody⟩
  · cases List.mem_singleton.mp hmem
    exact Or.inr ⟨hpost, a, rfl, hsuccess, hbody⟩

theorem Pending.again {q : HttpRequest} {answer : Outcome HttpResponse} (h : Pending f k)
    (hnot : q.method = "POST" → ∀ a, answer = .ok a → a.isSuccess = false) :
    Pending f ⟨k.asked ++ [(q, answer)], k.told, k.fills⟩ where
  told := h.told
  fills := h.fills
  none := by
    intro body haccepted
    rcases accepted_snoc haccepted with haccepted | ⟨hpost, a, ha, hsuccess, -⟩
    · exact h.none body haccepted
    · exact Bool.false_ne_true ((hnot hpost a ha).symm.trans hsuccess)

/-- A question about the price accepts nothing. -/
theorem way_get : Rest.Way (accepting mayCancel f) "GET" (Pending f) fun k' _ => Pending f k' := by
  have hget : ∀ {k q} {answer : Outcome HttpResponse}, Pending f k → q.method = "GET" →
      Pending f ((accepting mayCancel f).heard k q answer) := by
    intro k q answer hk hq
    refine hk.again fun hpost => ?_
    exact absurd (hq.symm.trans hpost) (by decide)
  exact {
    lenient := lenient_accepting mayCancel f
    halfway := Pending.fills
    failed := fun hk _ => hk
    again := fun hk hq _ _ => hget hk hq
    answered := fun hk hq _ => hget hk hq
    cancelled := fun hk hq _ _ _ => hget hk hq }

/-- An order is sent until it is answered. -/
theorem way_post :
    Rest.Way (accepting mayCancel f) "POST" (Pending f) (Returned mayCancel f) where
  lenient := lenient_accepting mayCancel f
  halfway := Pending.fills
  failed := fun hk _ => ⟨hk.told, hk.fills, fun body h => absurd h (hk.none body)⟩
  again := by
    rintro k q a hk - - hasks
    refine hk.again fun _ a' ha' => ?_
    obtain rfl := Except.ok.inj ha'
    exact HttpResponse.not_isSuccess_of_isThrottled hasks
  answered := by
    rintro k q answer hk - -
    refine ⟨hk.told, hk.fills, fun body h => Or.inl ?_⟩
    rcases accepted_snoc h with h | ⟨-, haccepted⟩
    · exact absurd h (hk.none body)
    · exact haccepted
  cancelled := by
    rintro k q answer s hk - - ⟨-, hmay⟩ hcancelled
    exact ⟨hk.told, hk.fills, fun _ _ => Or.inr ⟨hmay hcancelled, rfl⟩⟩

/-! ## 2. What follows -/

/-- The order is noted under this id, and the host was told. -/
structure Noted (f : Fills) (o : Order) (n : Nat) (k : Section) (result : Outcome Bool) : Prop where
  result : result = .ok true
  told : ∃ time, k.told = [.orderIds o.id [Text.ofNat n], .order (.ofStatus o .submitted "" time)]
  fills : k.fills = f.track (Text.ofNat n) o

/-- The call fails, and nobody knows of the order. -/
structure Lost (f : Fills) (k : Section) (result : Outcome Bool) : Prop where
  result : ∃ e, result = .error e
  told : k.told = []
  fills : k.fills = f

/-- What follows from an order that was accepted: it is noted under the id of a complete
description, and lost without one. -/
def Concluded (mayCancel : Bool) (f : Fills) (o : Order) (k : Section) (result : Outcome Bool) :
    Prop :=
  ∀ body fs, Accepted k.asked body → readSettled body = .ok (.object fs) →
    (∃ n, (DocumentShape.of fs).Complete fs n ∧ Noted f o n k result) ∨
    ((∀ n, ¬ (DocumentShape.of fs).Complete fs n) ∧ Lost f k result) ∨
    mayCancel = true ∧ result = .error .cancelled ∧ Lost f k result

/-- The same for the part that deals with the exchange alone, in terms of the order that is read
from the body. -/
structure Settled (mayCancel : Bool) (f : Fills) (o : Order) (k : Section)
    (result : Outcome (Option String)) : Prop where
  fills : k.fills = f
  accepted : ∀ body, Accepted k.asked body →
    (∃ w, Client.acknowledged body = .ok w ∧ result = .ok (some w.id) ∧
      ∃ time, k.told = [.orderIds o.id [w.id], .order (.ofStatus o .submitted "" time)]) ∨
    (∃ e, Client.acknowledged body = .error e ∧ result = .error e ∧ k.told = []) ∨
    mayCancel = true ∧ result = .error .cancelled ∧ k.told = []

theorem verdict_of_isSuccess {attempts : Nat} {a : HttpResponse} (h : a.isSuccess = true) :
    Client.verdict attempts a = .ok (.accepted a.body) := by
  rw [Client.verdict, if_pos h]

theorem ensures_settled (c : Client) (o : Order) (known : Option Decimal) (hk : Pending f k) :
    (c.placeOrder o known).Ensures (accepting mayCancel f) (Settled mayCancel f o) k := by
  refine ensures_placeOrder_of way_get way_post o known hk
    (fun k e hk => ⟨hk.fills, fun body h => absurd h (hk.none body)⟩) ?_
  intro k answer hreturned
  cases answer with
  | error e =>
    refine ⟨hreturned.fills, fun body h => Or.inr (Or.inr ?_)⟩
    rcases hreturned.accepted body h with ⟨a, ha, -⟩ | ⟨hmay, he⟩
    · cases ha
    · cases he
      exact ⟨hmay, rfl, hreturned.told⟩
  | ok a =>
  show match Client.verdict c.retry.attempts a with
    | .ok v => (settle o v).Ensures (accepting mayCancel f) (Settled mayCancel f o) k
    | .error e => Settled mayCancel f o k (.error e)
  have hbody : ∀ body, Accepted k.asked body → a.isSuccess = true ∧ a.body = body := by
    intro body h
    rcases hreturned.accepted body h with ⟨a', ha', haccepted⟩ | ⟨-, he⟩
    · cases ha'
      exact haccepted
    · cases he
  cases hverdict : Client.verdict c.retry.attempts a with
  | error e =>
    refine ⟨hreturned.fills, fun body h => ?_⟩
    rw [verdict_of_isSuccess (hbody body h).1] at hverdict
    cases hverdict
  | ok verdict =>
  cases verdict with
  | rejected cause =>
    rintro s ⟨⟨hkept, -⟩, -⟩
    refine ⟨⟨rfl, rfl, ⟨_, (List.append_assoc ..).symm⟩⟩, hkept.trans hreturned.fills, ?_⟩
    intro body h
    rw [verdict_of_isSuccess (hbody body h).1] at hverdict
    cases hverdict
  | accepted body =>
  obtain ⟨-, rfl⟩ := isSuccess_of_verdict hverdict
  dsimp only [settle]
  cases hplaced : Client.acknowledged a.body with
  | error e =>
    refine ⟨hreturned.fills, fun body h => Or.inr (Or.inl ?_)⟩
    obtain rfl := (hbody body h).2
    exact ⟨e, hplaced, rfl, hreturned.told⟩
  | ok placed =>
  rw [Act.ofOutcome_ok_andThen]
  rintro s ⟨⟨hkept, -⟩, -⟩
  refine ⟨⟨rfl, rfl, ⟨_, (List.append_assoc ..).symm⟩⟩, hkept.trans hreturned.fills, ?_⟩
  intro body h
  obtain rfl := (hbody body h).2
  refine Or.inl ⟨placed, hplaced, rfl, s.instant, ?_⟩
  show k.told ++ (s.events ++ _ ++ _).drop s.events.length = _
  rw [hreturned.told, List.append_assoc, List.drop_left]
  rfl

/-- A body that reads as an object is an acknowledgement just if it is complete. -/
theorem acknowledged_object {fs : List (String × Json)}
    (h : readSettled body = .ok (.object fs)) :
    Client.acknowledged body = WireOrder.ofJson (.object fs) := by
  rw [Client.acknowledged, h]

/-- **An order that was accepted is noted just where its description is complete**, and lost where
it is not. -/
theorem accepted_order_concluded (d : Desk) (o : Order) (f : Fills) (mayCancel : Bool) :
    (d.placing o).Ensures (accepting mayCancel f) (Concluded mayCancel f o) ⟨[], [], f⟩ := by
  have hpending : Pending f ⟨[], [], f⟩ := ⟨rfl, rfl, by rintro body ⟨q, a, hmem, -⟩; cases hmem⟩
  refine (lenient_accepting mayCancel f).access (fun s => ⟨s.gate, s.nonce, rfl⟩) ?_
  intro s _
  refine Act.Ensures.andThen ((ensures_settled d.toClient o _ hpending).mono ?_)
  rintro k result ⟨hfills, hsettled⟩
  cases result with
  | error e =>
    intro body fs haccepted hread
    rcases hsettled body haccepted with ⟨w, -, hw, -⟩ | ⟨e', hnot, -, htold⟩ | ⟨hmay, he, htold⟩
    · cases hw
    · refine Or.inr (Or.inl ⟨fun n hcomplete => ?_, ⟨e, rfl⟩, htold, hfills⟩)
      obtain ⟨w, hw, -⟩ := WireOrder.ofJson_iff.mpr hcomplete
      rw [acknowledged_object hread, hw] at hnot
      cases hnot
    · cases he
      exact Or.inr (Or.inr ⟨hmay, rfl, ⟨_, rfl⟩, htold, hfills⟩)
  | ok id =>
    cases id with
    | none =>
      intro body fs haccepted _
      rcases hsettled body haccepted with ⟨w, -, hw, -⟩ | ⟨e, -, he, -⟩ | ⟨-, he, -⟩
      · cases hw
      · cases he
      · cases he
    | some b =>
      rintro t ⟨⟨hkept, -⟩, -⟩
      refine ⟨⟨rfl, rfl, List.prefix_refl _⟩, fun body fs haccepted hread => Or.inl ?_⟩
      rcases hsettled body haccepted with ⟨w, hw, hid, time, htold⟩ | ⟨e, -, he, -⟩ | ⟨-, he, -⟩
      · cases hid
        rw [acknowledged_object hread] at hw
        obtain ⟨n, hn⟩ := WireOrder.id_of_ofJson hw
        refine ⟨n, WireOrder.ofJson_iff.mp ⟨w, hw, hn⟩, rfl, ⟨time, ?_⟩, ?_⟩
        · show k.told ++ t.events.drop t.events.length = _
          rw [List.drop_length, List.append_nil, htold, hn]
        · show Fills.track t.fills w.id o = _
          rw [hkept, hfills, hn]
      · cases he
      · cases he

/-! ## 3. A bare acknowledgement -/

/-- An order has this number, and was accepted then. -/
def bareBody : String :=
  "\x7b\"symbol\":\"ETHUSDT\",\"orderId\":42,\"orderListId\":-1,\"clientOrderId\":\"x\"," ++
    "\"transactTime\":1507725176595\x7d"

/-- The exchange accepts everything, without a description. -/
def bareAnswer (_ : HttpRequest) : Outcome HttpResponse := .ok ⟨200, bareBody⟩

/-- What is seen of an outcome to a request: it is the acceptance of an order. -/
def isBareAcceptance : HttpRequest × Outcome HttpResponse → Bool
  | (q, .ok a) => q.method == "POST" && a == ⟨200, bareBody⟩
  | (_, .error _) => false

/-- The order is placed, and nobody else takes a step. -/
def barePlacing : Option (Report × List (HttpRequest × Outcome HttpResponse) × DeskState) :=
  Crew.alone bareAnswer 0 ((OrderCall.place etherOrder).deed etherDesk) (.start ⟨1, 100⟩ 0)

theorem barePlacing_eq : (barePlacing.map fun r =>
    ((match r.1 with
      | .placed (.error _) => true
      | _ => false), r.2.1.any isBareAcceptance, r.2.2.fills.placed, r.2.2.events.isEmpty)) =
    some (true, true, Fills.empty.placed, true) := by decide +kernel

theorem bareBody_eq : (match readSettled bareBody with
    | .ok (.object fs) => ((required "orderId" decodeWord64 (.fields fs)).map (·.1)).toOption
    | _ => none) = some 42 := by decide +kernel

theorem bareBody_holds :
    ∃ fs, readSettled bareBody = .ok (.object fs) ∧ Holds fs "orderId" decodeWord64 42 := by
  have hid := bareBody_eq
  split at hid
  · rename_i fs hread
    refine ⟨fs, hread, ?_⟩
    cases hfield : required "orderId" decodeWord64 (.fields fs) with
    | error e =>
      rw [hfield] at hid
      cases hid
    | ok p =>
      obtain ⟨n, rest⟩ := p
      rw [hfield] at hid
      obtain rfl : n = 42 := Option.some.inj hid
      exact holds_of_required hfield
  · cases hid

/-- An order that was accepted, under a number that the answer gives, is lost. -/
theorem accepted_order_lost :
    ∃ c fs, Crew.Reached etherDesk c ∧ readSettled bareBody = .ok (.object fs) ∧
      Holds fs "orderId" decodeWord64 42 ∧
      (∃ d, c.deals = [d] ∧ d.call = .place etherOrder ∧ Accepted d.asked bareBody ∧
        ∃ e, d.report = .placed (.error e)) ∧
      c.state.events = [] ∧ c.state.fills.placed.get? "42" = none := by
  obtain ⟨r, hrun, hfacts⟩ := Option.map_eq_some_iff.mp barePlacing_eq
  obtain ⟨hreport, hasked, hfills, hevents⟩ :
      (match r.1 with
        | .placed (.error _) => true
        | _ => false) = true ∧ r.2.1.any isBareAcceptance = true ∧
        r.2.2.fills.placed = Fills.empty.placed ∧ r.2.2.events.isEmpty = true := by
    simpa only [Prod.mk.injEq] using hfacts
  obtain ⟨c, told, hreached, hstate, -, hdeals⟩ :=
    (Crew.reached_start etherDesk ⟨1, 100⟩ 0).call _ hrun
  obtain ⟨fs, hread, hid⟩ := bareBody_holds
  refine ⟨c, fs, hreached, hread, hid, ⟨_, hdeals, rfl, ?_, ?_⟩, ?_, ?_⟩
  · obtain ⟨⟨q, answer⟩, hmem, haccepted⟩ := List.any_eq_true.mp hasked
    cases answer with
    | error e => cases haccepted
    | ok a =>
      obtain ⟨hpost, ha⟩ := Bool.and_eq_true_iff.mp haccepted
      obtain rfl := eq_of_beq ha
      exact ⟨q, _, hmem, eq_of_beq hpost, rfl, rfl⟩
  · split at hreport
    · rename_i e hr
      exact ⟨e, hr⟩
    · cases hreport
  · rw [hstate]
    exact List.isEmpty_iff.mp hevents
  · rw [hstate, hfills]
    rfl

end OrderDesk.Orders
