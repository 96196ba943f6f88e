import OrderDesk.Proofs.Orders.AllOrNothing
import OrderDesk.Proofs.Orders.Kinds
import OrderDesk.Proofs.Rest.Signatures

/-!
# What a stop order is measured by

The exchange has two words for every stop order, one for a stop that cuts a loss and one for a stop
that takes a profit, and which of the two is meant depends on where the market stands.  The desk
goes by one price: the host's, on the side of the quote that the order would trade at, or, if the
host has none, the last price of the exchange (`Measured`).  An order that is sent with the wrong
word trades at once.

Four parts of the desk have a say in this: the side of the quote is picked, a zero counts as no
quote, the answer of the exchange is read, and the word is chosen for the surface and the kind.
This module follows an order through all of them, whatever the host and the exchange say and
whatever others do meanwhile (`stop_orders_measured`).  The exchange is asked for its price only
where the host has none; an order is sent only with the word that belongs to the price it is
measured by; and where there is no such price, or it is zero, no order is sent and the call fails.

Where there is one, the order is sent, with two exceptions: the desk is cancelled on the way, or
there is no key to sign with.  Numbers that leave their ranges end everything, as they always do.
-/

namespace OrderDesk

/-! ## 1. Losses and profits -/

/-- A stop that cuts a loss: it sells at this price or below, or buys above it. -/
def Direction.CutsLoss : Direction → (stop price : Decimal) → Prop
  | .sell, stop, price => stop.value ≤ price.value
  | .buy, stop, price => price.value < stop.value

/-- The kinds of stop orders that a surface takes. -/
def OrderKind.StopsOn : OrderKind → Surface → Prop
  | .stopLimit _ _, s => s ≠ .coinFutures
  | .stopMarket _, s => s.isFutures = true
  | .market, _ | .limit _ _, _ => False

theorem OrderKind.StopsOn.cases {k : OrderKind} {s : Surface} (h : k.StopsOn s) :
    (∃ stop limit, k = .stopLimit stop limit ∧ s ≠ .coinFutures) ∨
      ∃ stop, k = .stopMarket stop ∧ s.isFutures = true := by
  cases k with
  | market | limit _ _ => exact h.elim
  | stopLimit stop limit => exact Or.inl ⟨stop, limit, rfl, h⟩
  | stopMarket stop => exact Or.inr ⟨stop, rfl, h⟩

/-- The words of the exchange for stop orders, by whether they cut a loss. -/
inductive StopWord (s : Surface) : OrderKind → (loss : Bool) → String → Prop
  | coinsLoss {stop price : Decimal} : s.isFutures = false →
      StopWord s (.stopLimit stop price) true "STOP_LOSS_LIMIT"
  | coinsProfit {stop price : Decimal} : s.isFutures = false →
      StopWord s (.stopLimit stop price) false "TAKE_PROFIT_LIMIT"
  | contractsLoss {stop price : Decimal} : s.isFutures = true →
      StopWord s (.stopLimit stop price) true "STOP"
  | contractsProfit {stop price : Decimal} : s.isFutures = true →
      StopWord s (.stopLimit stop price) false "TAKE_PROFIT"
  | marketLoss {stop : Decimal} : s.isFutures = true →
      StopWord s (.stopMarket stop) true "STOP_MARKET"
  | marketProfit {stop : Decimal} : s.isFutures = true →
      StopWord s (.stopMarket stop) false "TAKE_PROFIT_MARKET"

/-- **The family of a stop is a matter of numbers.** -/
theorem StopFamily.classify_eq_stopLoss_iff {d : Direction} {stop price : Decimal} :
    classify d stop price = .stopLoss ↔ d.CutsLoss stop price := by
  cases d with
  | sell => simp [classify, Direction.CutsLoss, ← Decimal.le_iff]
  | buy => simp [classify, Direction.CutsLoss, ← Decimal.lt_iff]

example : StopFamily.classify .sell OrderRequest.ninety OrderRequest.ninety = .stopLoss ∧
    StopFamily.classify .buy OrderRequest.ninety OrderRequest.ninety = .takeProfit := by decide

theorem StopFamily.stopWord_limitType (f : StopFamily) (s : Surface) (stop price : Decimal) :
    StopWord s (.stopLimit stop price) (f == .stopLoss) (f.limitType s) := by
  cases hfutures : s.isFutures <;> cases f <;>
    simp only [StopFamily.limitType, hfutures, if_true, Bool.false_eq_true, if_false]
  · exact .coinsLoss hfutures
  · exact .coinsProfit hfutures
  · exact .contractsLoss hfutures
  · exact .contractsProfit hfutures

theorem StopFamily.stopWord_marketType (f : StopFamily) {s : Surface} (hs : s.isFutures = true)
    (stop : Decimal) : StopWord s (.stopMarket stop) (f == .stopLoss) f.marketType := by
  cases f
  · exact .marketLoss hs
  · exact .marketProfit hs

namespace OrderRequest

variable {s : Surface} {o : Order} {symbol : String} {price : Decimal}

/-- The type of a request for a stop order is the word that belongs to this price. -/
def SaysFor (r : OrderRequest) (s : Surface) (o : Order) (price : Decimal) : Prop :=
  ∃ stop loss word, o.kind.stop? = some stop ∧ (loss = true ↔ o.direction.CutsLoss stop price) ∧
    StopWord s o.kind loss word ∧ r.get? "type" = some word

theorem usableReference_some_of_ne (h : price.isZero = false) :
    usableReference (some price) = .ok price := by
  simp [usableReference, Option.filter, h]

/-- A stop order cannot be written down for a price of zero. -/
theorem build_zero (symbol : String) (hstop : o.kind.StopsOn s) (h : price.isZero = true) :
    ∃ e, build s o symbol (some price) = .error e := by
  obtain ⟨e, he⟩ : ∃ e, usableReference (some price) = .error e := by
    simp [usableReference, Option.filter, h]
  refine ⟨e, ?_⟩
  unfold build kindParameters
  obtain ⟨stop, limit, hkind, hs⟩ | ⟨stop, hkind, hs⟩ := hstop.cases
  · simp only [hkind, if_neg hs, he]
    rfl
  · simp only [hkind, if_pos hs, he]
    rfl

/-- **For any other price it can, with the word that belongs to that price.** -/
theorem build_nonzero (symbol : String) (hstop : o.kind.StopsOn s) (h : price.isZero = false) :
    ∃ r, build s o symbol (some price) = .ok r ∧ r.SaysFor s o price := by
  have husable := usableReference_some_of_ne h
  suffices hown : ∃ own word stop, kindParameters s o (some price) = .ok own ∧
      own.lookup "type" = some word ∧ o.kind.stop? = some stop ∧
      StopWord s o.kind (StopFamily.classify o.direction stop price == .stopLoss) word by
    obtain ⟨own, word, stop, hown, htype, hkind, hword⟩ := hown
    have hbuild : build s o symbol (some price) = .ok ⟨pathOf s o.kind,
        ("symbol", symbol) :: ("quantity", amountText o.quantity.abs) ::
          ("side", o.direction.wireName) :: (own ++ marginParameters s), o.kind.isAlgoOn s⟩ := by
      rw [build, hown]
      rfl
    refine ⟨_, hbuild, stop, _, word, hkind, ?_, hword, ?_⟩
    · rw [beq_iff_eq, StopFamily.classify_eq_stopLoss_iff]
    · obtain ⟨own', hown', hget⟩ := get?_build hbuild
      rw [hown] at hown'
      cases hown'
      rw [hget _ (by decide), htype]
  obtain ⟨stop, limit, hkind, hs⟩ | ⟨stop, hkind, hs⟩ := hstop.cases
  · have hown : kindParameters s o (some price) =
        .ok (("type", (StopFamily.classify o.direction stop price).limitType s) ::
          ("timeInForce", o.timeInForce.wireName) :: ("price", amountText limit) ::
          stopParameters s stop) := by
      simp only [kindParameters, hkind, if_neg hs, husable]
      rfl
    rw [hkind]
    exact ⟨_, _, stop, hown, rfl, rfl, StopFamily.stopWord_limitType ..⟩
  · have hown : kindParameters s o (some price) =
        .ok (("type", (StopFamily.classify o.direction stop price).marketType) ::
          stopParameters s stop) := by
      simp only [kindParameters, hkind, if_pos hs, husable]
      rfl
    rw [hkind]
    exact ⟨_, _, stop, hown, rfl, rfl, StopFamily.stopWord_marketType _ hs stop⟩

end OrderRequest

/-- The exchange answered with this price. -/
def HttpResponse.Tells (a : HttpResponse) (price : Decimal) : Prop :=
  a.isSuccess = true ∧ ∃ j p, Json.decodeText (Json.decodeUntyped 0) a.body = .ok j ∧
    Wire.lastPrice (Client.firstItem j) = .ok p ∧ p.price = price

theorem HttpResponse.Tells.unique {a : HttpResponse} {p q : Decimal} (hp : a.Tells p)
    (hq : a.Tells q) : p = q := by
  obtain ⟨-, j, p', hj, hp', rfl⟩ := hp
  obtain ⟨-, k, q', hk, hq', rfl⟩ := hq
  cases hj.symm.trans hk
  cases hp'.symm.trans hq'
  rfl

/-- What a lookup of the last price makes of an answer. -/
def HttpResponse.toldPrice (attempts : Nat) (a : HttpResponse) : Outcome Decimal :=
  (a.decode attempts (Json.decodeUntyped 0)).bind fun j =>
    match Wire.lastPrice (Client.firstItem j) with
    | .ok p => .ok p.price
    | .error m => .error (.document m.message)

/-- A lookup finds the price that the exchange answered with, and fails if there is none. -/
theorem HttpResponse.toldPrice_eq_ok_iff {a : HttpResponse} {price : Decimal} (attempts : Nat) :
    a.toldPrice attempts = .ok price ↔ a.Tells price := by
  have htells : a.Tells price ↔ ∃ j p, a.decode attempts (Json.decodeUntyped 0) = .ok j ∧
      Wire.lastPrice (Client.firstItem j) = .ok p ∧ p.price = price := by
    unfold HttpResponse.Tells
    simp only [HttpResponse.decode_eq_ok_iff, and_assoc, exists_and_left]
  rw [htells]
  unfold HttpResponse.toldPrice
  cases a.decode attempts (Json.decodeUntyped 0) with
  | error e => exact ⟨nofun, fun ⟨j, _, hj, _⟩ => nomatch hj⟩
  | ok j =>
    constructor
    · intro h
      dsimp only [Except.bind] at h
      split at h
      · rename_i p hp
        cases h
        exact ⟨j, p, rfl, hp, rfl⟩
      · cases h
    · rintro ⟨_, p, ⟨⟩, hp, rfl⟩
      simp only [Except.bind, hp]

namespace Orders

/-! ## 2. The price that an order is measured by -/

/-- The host has no price for an order: no quote, or nothing on the side that it would trade at. -/
def Unquoted (o : Order) (quote : Option Quote) : Prop :=
  ∀ q, quote = some q →
    match o.direction with
    | .buy => q.ask.isZero = true
    | .sell => q.bid.isZero = true

/-- The price that an order is measured by: the ask of the host to buy and its bid to sell, and
what the exchange answered last if the host has none. -/
inductive Measured (o : Order) (quote : Option Quote)
    (asked : List (HttpRequest × Outcome HttpResponse)) : Decimal → Prop
  | ask {q : Quote} : quote = some q → o.direction = .buy → q.ask.isZero = false →
      Measured o quote asked q.ask
  | bid {q : Quote} : quote = some q → o.direction = .sell → q.bid.isZero = false →
      Measured o quote asked q.bid
  | last {a : HttpResponse} {price : Decimal} : Unquoted o quote →
      lastAnswer "GET" asked = some (.ok a) → a.Tells price → Measured o quote asked price

variable {o : Order} {quote : Option Quote} {asked : List (HttpRequest × Outcome HttpResponse)}
  {price : Decimal}

/-- Without a quote it is the exchange that told the price. -/
theorem Measured.told (h : Measured o quote asked price) (hunquoted : Unquoted o quote) :
    ∃ a, lastAnswer "GET" asked = some (.ok a) ∧ a.Tells price := by
  cases h with
  | ask hquote hbuy hask =>
    have hzero := hunquoted _ hquote
    rw [hbuy] at hzero
    exact absurd (hask.symm.trans hzero) Bool.false_ne_true
  | bid hquote hsell hbid =>
    have hzero := hunquoted _ hquote
    rw [hsell] at hzero
    exact absurd (hbid.symm.trans hzero) Bool.false_ne_true
  | last _ hlast htells => exact ⟨_, hlast, htells⟩

/-- **There is never more than one such price.** -/
theorem Measured.unique {p q : Decimal} (hp : Measured o quote asked p)
    (hq : Measured o quote asked q) : p = q := by
  by_cases hunquoted : Unquoted o quote
  · obtain ⟨a, hlast, htells⟩ := hp.told hunquoted
    obtain ⟨a', hlast', htells'⟩ := hq.told hunquoted
    cases hlast.symm.trans hlast'
    exact htells.unique htells'
  · cases hp with
    | last hnone _ _ => exact absurd hnone hunquoted
    | ask hquote hbuy _ =>
      cases hq with
      | ask hquote' _ _ =>
        cases hquote.symm.trans hquote'
        rfl
      | bid _ hsell _ => cases hbuy.symm.trans hsell
      | last hnone _ _ => exact absurd hnone hunquoted
    | bid hquote hsell _ =>
      cases hq with
      | ask _ hbuy _ => cases hbuy.symm.trans hsell
      | bid hquote' _ _ =>
        cases hquote.symm.trans hquote'
        rfl
      | last hnone _ _ => exact absurd hnone hunquoted

/-- Orders that were sent do not change it. -/
theorem Measured.snoc (h : Measured o quote asked price) {q : HttpRequest}
    (hq : q.method ≠ "GET") (answer : Outcome HttpResponse) :
    Measured o quote (asked ++ [(q, answer)]) price := by
  cases h with
  | ask hquote hbuy hask => exact .ask hquote hbuy hask
  | bid hquote hsell hbid => exact .bid hquote hsell hbid
  | last hunquoted hlast htells =>
    exact .last hunquoted ((lastAnswer_snoc_of_ne asked answer hq).trans hlast) htells

/-- **The desk takes the right side of the quote**, and a zero for no price. -/
theorem measured_or_unquoted (h : Host) (o : Order) :
    (∃ price, Client.usable (Desk.hostPrice h o) = some price ∧ price.isZero = false ∧
      ∀ asked, Measured o (h.quoteOf o.instrument) asked price) ∨
    (Client.usable (Desk.hostPrice h o) = none ∧ Unquoted o (h.quoteOf o.instrument)) := by
  unfold Desk.hostPrice Client.usable
  cases hquote : h.quoteOf o.instrument with
  | none => exact Or.inr ⟨rfl, nofun⟩
  | some q =>
    cases hdirection : o.direction with
    | buy =>
      cases hask : q.ask.isZero with
      | false =>
        exact Or.inl ⟨q.ask, by simp [Option.filter, hask], hask, fun _ => .ask rfl hdirection hask⟩
      | true =>
        refine Or.inr ⟨by simp [Option.filter, hask], ?_⟩
        rintro _ ⟨⟩
        rw [hdirection]
        exact hask
    | sell =>
      cases hbid : q.bid.isZero with
      | false =>
        exact Or.inl ⟨q.bid, by simp [Option.filter, hbid], hbid, fun _ => .bid rfl hdirection hbid⟩
      | true =>
        refine Or.inr ⟨by simp [Option.filter, hbid], ?_⟩
        rintro _ ⟨⟩
        rw [hdirection]
        exact hbid

/-! ## 3. The watch over an order -/

/-- What is known of an order on its way: the quote of the host, the requests with their answers,
and what they met. -/
structure Pricing where
  quote : Option Quote
  asked : List (HttpRequest × Outcome HttpResponse)
  met : Rest.Encounters

namespace Pricing

/-- What is known after a change of the state. -/
def after (p : Pricing) (s s' : DeskState) : Pricing :=
  { p with met := ⟨s'.nonce.last, p.met.cancelled || s.cancelled,
      p.met.outOfRange || !(s.gate.fits s.now && s.nonce.inRange s.clock)⟩ }

/-- What is known after an answer. -/
def heard (p : Pricing) (q : HttpRequest) (answer : Outcome HttpResponse) : Pricing :=
  { p with asked := p.asked ++ [(q, answer)] }

/-- The price that the order is measured by, as far as it is known. -/
def Measures (p : Pricing) (o : Order) (price : Decimal) : Prop :=
  Measured o p.quote p.asked price

/-- Nothing but questions was sent. -/
def Questions (p : Pricing) : Prop := ∀ x ∈ p.asked, x.1.method = "GET"

/-- An order was sent. -/
def Posted (p : Pricing) : Prop := ∃ x ∈ p.asked, x.1.method = "POST"

/-- The question for the last price of a symbol. -/
def question (s : Surface) (symbol : String) : Rest.Call :=
  ⟨"GET", s.pricePath, [("symbol", symbol)], .open⟩

/-- What may be sent: the question for the last price, as long as the host has none and no order
was sent; and the order, with the word that belongs to the price that it is measured by. -/
inductive Sends (c : Client) (o : Order) (symbol : String) (p : Pricing) (q : HttpRequest) : Prop
  | question : Unquoted o p.quote → p.Questions →
      c.toRest.Sends (question c.surface symbol) p.met.last q → Sends c o symbol p q
  | order {price : Decimal} {request : OrderRequest} : p.Measures o price →
      price.isZero = false → OrderRequest.build c.surface o symbol (some price) = .ok request →
      request.SaysFor c.surface o price →
      c.toRest.Sends ⟨"POST", request.path, request.parameters, .signed⟩ p.met.last q →
      Sends c o symbol p q

variable {α : Type}

/-- The order was sent, or the desk was cancelled before, or there is no key. -/
def Sent (r : Rest) (p : Pricing) (result : Outcome α) : Prop :=
  p.Posted ∨ (p.met.cancelled = true ∧ result = .error .cancelled) ∨
    (r.signer = none ∧ result = .error Rest.keyless)

/-- What came of a stop order.

* `sent`: it is sent if there is a price that is not zero;
* `unsent`: otherwise it is not, and the call fails. -/
structure Concluded (r : Rest) (o : Order) (p : Pricing) (result : Outcome α) : Prop where
  sent : ∀ price, p.Measures o price → price.isZero = false → p.Sent r result
  unsent : (∀ price, p.Measures o price → price.isZero = true) →
    ¬ p.Posted ∧ ∃ e, result = .error e

end Pricing

/-- Where a call is: it waits for the lock, has it, or has looked at the quote of the host. -/
inductive Approach where
  | outside
  | inside
  | priced (p : Pricing)

/-- The call has looked at the quote, and this holds of what it knows. -/
def Approach.Priced (post : Pricing → Prop) (a : Approach) : Prop := ∃ p, a = .priced p ∧ post p

/-- The watch over a stop order under this symbol. -/
def pricing (c : Client) (o : Order) (symbol : String) : Watch DeskState Approach where
  meets _ _ := True
  answers _ _ := True
  allows _ _ := True
  changed
    | .outside, _, _ => .inside
    | .inside, s, s' => .priced ⟨s.host.quoteOf o.instrument, [], ⟨s'.nonce.last, false, false⟩⟩
    | .priced p, s, s' => .priced (p.after s s')
  heard
    | .priced p, q, answer => .priced (p.heard q answer)
    | a, _, _ => a
  halfway
    | .priced p => p.met.outOfRange = true ∨ c.retry.fits = false
    | .outside | .inside => False
  passed a _ := a
  sends
    | .priced p, q => p.Sends c o symbol q
    | .outside, _ | .inside, _ => False

/-! ## 4. Requests on the way -/

variable {c : Client} {symbol : String} {p : Pricing}

/-- **A request takes its course under this watch** if it may be sent (`hsends`), and what is known
before an attempt (`before`) and at the end (`post`) fits together. -/
theorem course_pricing {call : Rest.Call} {before : Pricing → Prop}
    {post : Pricing → Outcome HttpResponse → Prop}
    (hbefore : ∀ {p} s s', before p → before (p.after s s'))
    (hpost : ∀ {p answer} s s', post p answer → post (p.after s s') answer)
    (hsends : ∀ {p q}, before p → c.toRest.Sends call p.met.last q → p.Sends c o symbol q)
    (hheard : ∀ {p q} answer, before p → q.method = call.method → post (p.heard q answer) answer)
    (hagain : ∀ {p q a}, before p → q.method = call.method → before (p.heard q (.ok a)))
    (hkeyless : ∀ {p}, before p → call.LacksKey c.toRest → post p (.error Rest.keyless))
    (hcancelled : ∀ {p}, before p → p.met.cancelled = true → post p (.error .cancelled))
    (hlost : ∀ {p answer}, post p answer → p.met.cancelled = true → post p (.error .cancelled)) :
    Rest.Course (pricing c o symbol) c.toRest call (Approach.Priced before)
      fun a answer => a.Priced fun p => post p answer where
  timeless _ _ := rfl
  passing := by
    rintro _ s gate ⟨p, rfl, hp⟩ -
    exact ⟨trivial, _, rfl, hbefore _ _ hp⟩
  jam := by
    rintro _ s ⟨p, rfl, -⟩ - hjam
    exact Or.inl (by simp [Pricing.after, hjam])
  stamping := by
    rintro _ s ⟨p, rfl, hp⟩ -
    exact ⟨trivial, _, rfl, hbefore _ _ hp⟩
  overrun := by
    rintro _ s ⟨p, rfl, -⟩ - hout
    exact Or.inl (by simp [Pricing.after, hout])
  unfit := by
    rintro _ ⟨p, rfl, -⟩ hunfit
    exact Or.inr hunfit
  refused := by
    rintro _ stamp e ⟨p, rfl, hp⟩ hrefused
    obtain ⟨hlacks, rfl⟩ := Rest.keyless_of_prepared hrefused
    exact ⟨p, rfl, hkeyless hp hlacks⟩
  sealed := by
    rintro _ s q ⟨p, rfl, hp⟩ - - hq
    exact hsends (hbefore _ _ hp) (Rest.sends_of_prepared hq)
  plain := by
    rintro _ q ⟨p, rfl, hp⟩ hplain hq
    exact hsends hp ((Rest.sends_of_prepared hq).of_not_sealed hplain)
  answered := by
    rintro _ q answer stamp ⟨p, rfl, hp⟩ hq -
    exact ⟨_, rfl, hheard answer hp (Rest.sends_of_prepared hq).method⟩
  again := by
    rintro _ q a stamp ⟨p, rfl, hp⟩ hq - -
    exact ⟨_, rfl, hagain hp (Rest.sends_of_prepared hq).method⟩
  cancelled := by
    rintro _ s ⟨p, rfl, hp⟩ - hs
    exact ⟨_, rfl, hcancelled (hbefore s s hp) (by simp [Pricing.after, hs])⟩
  lost := by
    rintro _ s answer ⟨p, rfl, hp⟩ -
    refine ⟨trivial, ⟨_, rfl, hpost s s hp⟩, fun hs => ⟨_, rfl, ?_⟩⟩
    exact hlost (hpost s s hp) (by simp [Pricing.after, hs])

/-- What is known after the question for the last price. -/
structure Pricing.Answered (quote : Option Quote) (p : Pricing) (answer : Outcome HttpResponse) :
    Prop where
  quote : p.quote = quote
  questions : p.Questions
  last : lastAnswer "GET" p.asked = some answer ∨
    (answer = .error .cancelled ∧ p.met.cancelled = true)

theorem Pricing.questions_nil (quote : Option Quote) (met : Rest.Encounters) :
    (⟨quote, [], met⟩ : Pricing).Questions :=
  List.forall_mem_nil _

theorem Pricing.Questions.heard (h : p.Questions) {q : HttpRequest} (hq : q.method = "GET")
    (answer : Outcome HttpResponse) : (p.heard q answer).Questions := by
  refine List.forall_mem_append.mpr ⟨h, fun x hx => ?_⟩
  obtain rfl := List.mem_singleton.mp hx
  exact hq

/-- Where the host has no price the exchange may be asked. -/
theorem course_question (hunquoted : Unquoted o quote) :
    Rest.Course (pricing c o symbol) c.toRest (Pricing.question c.surface symbol)
      (Approach.Priced fun p => p.quote = quote ∧ p.Questions)
      fun a answer => a.Priced fun p => p.Answered quote answer := by
  refine course_pricing (fun _ _ h => h) (fun _ _ h => ⟨h.quote, h.questions, ?_⟩) ?_ ?_ ?_ ?_ ?_ ?_
  · exact h.last.imp_right fun hlost => ⟨hlost.1, by simp [Pricing.after, hlost.2]⟩
  · rintro p q ⟨rfl, hquestions⟩ hq
    exact .question hunquoted hquestions hq
  · rintro p q answer ⟨hquote, hquestions⟩ hq
    exact ⟨hquote, hquestions.heard hq answer, Or.inl (lastAnswer_snoc_self _ _ hq)⟩
  · rintro p q a ⟨hquote, hquestions⟩ hq
    exact ⟨hquote, hquestions.heard hq _⟩
  · rintro p - ⟨hopen, -⟩
    exact absurd rfl hopen
  · rintro p ⟨hquote, hquestions⟩ hcancelled
    exact ⟨hquote, hquestions, Or.inr ⟨rfl, hcancelled⟩⟩
  · rintro p answer h hcancelled
    exact ⟨h.quote, h.questions, Or.inr ⟨rfl, hcancelled⟩⟩

/-- Where the price is known the order may be sent. -/
theorem course_order {request : OrderRequest} (hnonzero : price.isZero = false)
    (hbuild : OrderRequest.build c.surface o symbol (some price) = .ok request)
    (hword : request.SaysFor c.surface o price) :
    Rest.Course (pricing c o symbol) c.toRest ⟨"POST", request.path, request.parameters, .signed⟩
      (Approach.Priced fun p => p.Measures o price)
      fun a answer => a.Priced fun p => p.Measures o price ∧ p.Sent c.toRest answer := by
  have hkept : ∀ {p : Pricing} {q : HttpRequest} (answer : Outcome HttpResponse),
      p.Measures o price → q.method = "POST" → (p.heard q answer).Measures o price :=
    fun answer h hq => Measured.snoc h (by rw [hq]; decide) answer
  refine course_pricing (fun _ _ h => h) (fun _ _ h => ⟨h.1, ?_⟩) ?_ ?_ ?_ ?_ ?_ ?_
  · exact h.2.imp_right (Or.imp_left fun hlost => ⟨by simp [Pricing.after, hlost.1], hlost.2⟩)
  · exact fun h hq => .order h hnonzero hbuild hword hq
  · exact fun answer h hq =>
      ⟨hkept answer h hq, Or.inl ⟨_, List.mem_append_right _ List.mem_cons_self, hq⟩⟩
  · exact fun h hq => hkept _ h hq
  · exact fun h hlacks => ⟨h, Or.inr (Or.inr ⟨hlacks.2, rfl⟩)⟩
  · exact fun h hcancelled => ⟨h, Or.inr (Or.inl ⟨hcancelled, rfl⟩)⟩
  · exact fun h hcancelled => ⟨h.1, Or.inr (Or.inl ⟨hcancelled, rfl⟩)⟩

/-! ## 5. From the quote to the order -/

/-- What is known once the price was looked up: either it is found, or there is none, or the desk
was cancelled meanwhile. -/
structure Pricing.Looked (o : Order) (p : Pricing) (result : Outcome Decimal) : Prop where
  questions : p.Questions
  found : ∀ price, result = .ok price → p.Measures o price
  missing : ∀ e, result = .error e →
    (∀ price, ¬ p.Measures o price) ∨ (p.met.cancelled = true ∧ e = .cancelled)

namespace Pricing.Looked

theorem of_measures (hquestions : p.Questions) (hmeasures : p.Measures o price) :
    p.Looked o (.ok price) where
  questions := hquestions
  found := by
    rintro _ ⟨⟩
    exact hmeasures
  missing := by rintro _ ⟨⟩

theorem of_missing {e : Fault} (hquestions : p.Questions)
    (hmissing : (∀ price, ¬ p.Measures o price) ∨ (p.met.cancelled = true ∧ e = .cancelled)) :
    p.Looked o (.error e) where
  questions := hquestions
  found := by rintro _ ⟨⟩
  missing := by
    rintro _ ⟨⟩
    exact hmissing

end Pricing.Looked

/-- A lookup sends the one question and comes to what the last answer comes to. -/
theorem upholds_lookup (hunquoted : Unquoted o p.quote) (hquestions : p.Questions) :
    (c.price symbol).Upholds (pricing c o symbol) (fun a result => a.Priced fun p' =>
      ∃ answer, p'.Answered p.quote answer ∧
        result = answer.bind (HttpResponse.toldPrice c.retry.attempts)) (.priced p) := by
  refine Act.Upholds.andThen (Act.Upholds.andThen
    (((course_question hunquoted).upholds_execute ⟨p, rfl, rfl, hquestions⟩).mono ?_))
  rintro _ answer ⟨p', rfl, hanswered⟩
  cases answer with
  | error e => exact ⟨p', rfl, _, hanswered, rfl⟩
  | ok a =>
    show Act.Upholds _ _ (Act.ofOutcome (a.decode c.retry.attempts (Json.decodeUntyped 0))) _
    cases hdecode : a.decode c.retry.attempts (Json.decodeUntyped 0) with
    | error e =>
      refine ⟨p', rfl, _, hanswered, ?_⟩
      simp only [Except.bind, HttpResponse.toldPrice, hdecode]
    | ok j =>
      simp only [Act.ofOutcome, Act.Upholds]
      cases hprice : Wire.lastPrice (Client.firstItem j) with
      | error m =>
        refine ⟨p', rfl, _, hanswered, ?_⟩
        simp only [Except.bind, HttpResponse.toldPrice, hdecode, hprice]
      | ok told =>
        refine ⟨p', rfl, _, hanswered, ?_⟩
        simp only [Except.bind, HttpResponse.toldPrice, hdecode, hprice]

/-- **The last price of the exchange is the measure where the host has none.** -/
theorem upholds_price (hunquoted : Unquoted o p.quote) (hquestions : p.Questions) :
    (c.price symbol).Upholds (pricing c o symbol) (fun a result => a.Priced (·.Looked o result))
      (.priced p) := by
  refine (upholds_lookup hunquoted hquestions).mono ?_
  rintro _ result ⟨p', rfl, answer, hanswered, rfl⟩
  refine ⟨p', rfl, ?_⟩
  have htold : ∀ price, p'.Measures o price →
      ∃ a, lastAnswer "GET" p'.asked = some (.ok a) ∧ a.Tells price :=
    fun price h => Measured.told h (hanswered.quote ▸ hunquoted)
  cases answer with
  | error e =>
    refine .of_missing hanswered.questions ?_
    rcases hanswered.last with hlast | ⟨hlost, hcancelled⟩
    · refine Or.inl fun price h => ?_
      obtain ⟨a, ha, -⟩ := htold price h
      cases hlast.symm.trans ha
    · cases hlost
      exact Or.inr ⟨hcancelled, rfl⟩
  | ok a =>
    have hlast : lastAnswer "GET" p'.asked = some (.ok a) := hanswered.last.resolve_right (by simp)
    show p'.Looked o (a.toldPrice c.retry.attempts)
    cases htells : a.toldPrice c.retry.attempts with
    | ok price =>
      rw [HttpResponse.toldPrice_eq_ok_iff] at htells
      exact .of_measures hanswered.questions (.last (hanswered.quote ▸ hunquoted) hlast htells)
    | error e =>
      refine .of_missing hanswered.questions (Or.inl fun price h => ?_)
      obtain ⟨a', ha', hprice⟩ := htold price h
      cases hlast.symm.trans ha'
      cases htells.symm.trans ((HttpResponse.toldPrice_eq_ok_iff _).mpr hprice)

/-- **The host is asked first, and the exchange only if the host has no price.** -/
theorem upholds_reference (hstop : o.kind.StopsOn c.surface) (h : Host) (met : Rest.Encounters) :
    (c.reference o symbol (Desk.hostPrice h o)).Upholds (pricing c o symbol)
      (fun a result => a.Priced fun p =>
        ∃ known : Outcome Decimal, result = known.map some ∧ p.Looked o known)
      (.priced ⟨h.quoteOf o.instrument, [], met⟩) := by
  have hneeds : o.kind.needsReference = true := by
    obtain ⟨_, _, hkind, -⟩ | ⟨_, hkind, -⟩ := hstop.cases <;> rw [hkind] <;> rfl
  unfold Client.reference
  rw [if_pos hneeds]
  rcases measured_or_unquoted h o with ⟨price, hknown, -, hmeasured⟩ | ⟨hknown, hunquoted⟩
  · rw [hknown]
    exact ⟨_, rfl, .ok price, rfl, .of_measures (Pricing.questions_nil _ _) (hmeasured [])⟩
  · rw [hknown]
    refine Act.Upholds.andThen ((upholds_price hunquoted (Pricing.questions_nil _ _)).mono ?_)
    rintro _ result ⟨p, rfl, hlooked⟩
    cases result with
    | error e => exact ⟨p, rfl, .error e, rfl, hlooked⟩
    | ok price => exact ⟨p, rfl, .ok price, rfl, hlooked⟩

/-! ## 6. The whole way of a stop order -/

section Concluded

variable {α β : Type} {r : Rest} {result : Outcome α} {s s' : DeskState}

namespace Pricing

/-- An order that can be measured is sent, and nothing else has to be seen to. -/
theorem Concluded.of_sent (hmeasures : p.Measures o price) (hnonzero : price.isZero = false)
    (hsent : p.Sent r result) : p.Concluded r o result where
  sent _ _ _ := hsent
  unsent hzero := absurd (hnonzero.symm.trans (hzero price hmeasures)) Bool.false_ne_true

/-- An order that cannot be measured is not sent. -/
theorem Concluded.of_questions {e : Fault} (hquestions : p.Questions)
    (hsent : ∀ price, p.Measures o price → price.isZero = false →
      p.Sent r (.error e : Outcome α)) : p.Concluded r o (.error e : Outcome α) where
  sent := hsent
  unsent _ := by
    refine ⟨?_, e, rfl⟩
    rintro ⟨x, hx, hpost⟩
    exact absurd ((hquestions x hx).symm.trans hpost) (by decide)

/-- What is made of a result does not matter, as long as failures are passed on. -/
theorem Concluded.passOn {result' : Outcome β} (h : p.Concluded r o result)
    (hfailure : ∀ e, result = .error e → result' = .error e) : p.Concluded r o result' where
  sent price hmeasures hnonzero := (h.sent price hmeasures hnonzero).imp_right
    (Or.imp (And.imp_right (hfailure _)) (And.imp_right (hfailure _)))
  unsent hzero := by
    obtain ⟨hunposted, e, he⟩ := h.unsent hzero
    exact ⟨hunposted, e, hfailure e he⟩

/-- Later changes of the state make no difference. -/
theorem Concluded.after (h : p.Concluded r o result) : (p.after s s').Concluded r o result where
  sent price hmeasures hnonzero := by
    rcases h.sent price hmeasures hnonzero with hposted | ⟨hcancelled, hlost⟩ | hkeyless
    · exact Or.inl hposted
    · exact Or.inr (Or.inl ⟨by simp [Pricing.after, hcancelled], hlost⟩)
    · exact Or.inr (Or.inr hkeyless)
  unsent := h.unsent

end Pricing
end Concluded

/-- **What comes back for an order does not matter here**: it was sent, and the host is told. -/
theorem upholds_settled {v : Client.Verdict} (hmeasures : p.Measures o price)
    (hnonzero : price.isZero = false) (hposted : p.Posted) :
    (settle o v).Upholds (pricing c o symbol)
      (fun a result => a.Priced (·.Concluded c.toRest o result)) (.priced p) := by
  cases v with
  | rejected cause =>
    exact fun _ _ => ⟨trivial, _, rfl, .of_sent hmeasures hnonzero (Or.inl hposted)⟩
  | accepted body =>
    dsimp only [settle]
    cases Client.acknowledged body with
    | error e => exact ⟨_, rfl, .of_sent hmeasures hnonzero (Or.inl hposted)⟩
    | ok placed =>
      exact fun _ _ => ⟨trivial, _, rfl, .of_sent hmeasures hnonzero (Or.inl hposted)⟩

theorem upholds_placeOrder (hsymbol : c.listing.wireSymbol o.instrument = .ok symbol)
    (hstop : o.kind.StopsOn c.surface) (h : Host) (met : Rest.Encounters) :
    (c.placeOrder o (Desk.hostPrice h o)).Upholds (pricing c o symbol)
      (fun a result => a.Priced (·.Concluded c.toRest o result))
      (.priced ⟨h.quoteOf o.instrument, [], met⟩) := by
  unfold Client.placeOrder
  rw [hsymbol, Act.ofOutcome_ok_andThen]
  refine Act.Upholds.andThen ((upholds_reference hstop h met).mono ?_)
  rintro _ _ ⟨p, rfl, known, rfl, hlooked⟩
  cases known with
  | error e =>
    refine ⟨p, rfl, .of_questions hlooked.questions fun price hmeasures _ => ?_⟩
    rcases hlooked.missing e rfl with hnone | ⟨hcancelled, rfl⟩
    · exact absurd hmeasures (hnone price)
    · exact Or.inr (Or.inl ⟨hcancelled, rfl⟩)
  | ok price =>
    have hmeasures := hlooked.found price rfl
    dsimp only [Except.map]
    cases hzero : price.isZero with
    | true =>
      obtain ⟨e, he⟩ := OrderRequest.build_zero symbol hstop hzero
      rw [he]
      refine ⟨p, rfl, .of_questions hlooked.questions fun price' hmeasures' hnonzero => ?_⟩
      obtain rfl := hmeasures.unique hmeasures'
      exact absurd (hnonzero.symm.trans hzero) Bool.false_ne_true
    | false =>
      obtain ⟨request, hbuild, hword⟩ := OrderRequest.build_nonzero symbol hstop hzero
      rw [hbuild, Act.ofOutcome_ok_andThen]
      refine Act.Upholds.andThen (Act.Upholds.andThen
        (((course_order hzero hbuild hword).upholds_execute ⟨p, rfl, hmeasures⟩).mono ?_))
      rintro _ answer ⟨p', rfl, hmeasures', hsent⟩
      cases answer with
      | error e =>
        exact ⟨p', rfl, (Pricing.Concluded.of_sent hmeasures' hzero hsent).passOn (by simp)⟩
      | ok a =>
        have hposted : p'.Posted := hsent.resolve_right (by simp)
        show Act.Upholds _ _ (Act.ofOutcome _) _
        cases Client.verdict c.retry.attempts a with
        | error e => exact ⟨p', rfl, .of_sent hmeasures' hzero (Or.inl hposted)⟩
        | ok v =>
          have hsettled : (settle o v).Upholds (pricing c o symbol) _ _ :=
            upholds_settled hmeasures' hzero hposted
          cases v <;> exact hsettled

end Orders
end OrderDesk
