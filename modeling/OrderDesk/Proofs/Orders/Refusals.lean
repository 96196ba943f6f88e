import OrderDesk.Proofs.Listing
import OrderDesk.Proofs.Orders.Alone
import OrderDesk.Proofs.Orders.Cancelling
import OrderDesk.Proofs.Orders.Stops
import OrderDesk.Proofs.Within

/-!
# Orders that are refused

Some orders the desk does not take to the exchange: a surface does not have every kind of order, and
it does not trade every instrument.

An order of a kind that the surface does not have never gets there, and the host hears no more of it
than that the call failed (`unsupported_orders_refused`).  It is a stop order, though, and so its
reference price is looked up before its kind is looked at.  Where the host has no price, the
exchange is asked for one; and if it has none either, it is this that the call fails with, and not
the kind (`Refused`).

An order on an instrument that is unknown to the listing is neither placed nor cancelled: under the
lock nothing happens at all (`foreign_orders_refused`).  There is one exception.  A stop order that
is kept apart is cancelled by its id alone, and its instrument is not looked at.
-/

namespace OrderDesk

/-! ## 1. Kinds that a surface does not have -/

namespace OrderKind

/-- A surface does not have orders of this kind. -/
def UnsupportedOn : OrderKind → Surface → Prop
  | .stopLimit _ _, s => s = .coinFutures
  | .stopMarket _, s => s.isFutures = false
  | .market, _ | .limit _ _, _ => False

/-- The failure that names a kind. -/
def refusal (k : OrderKind) (s : Surface) : Fault :=
  .unsupportedOrder (s.label ++
    match k with
    | .market => " does not support market orders"
    | .limit _ _ => " does not support limit orders"
    | .stopLimit _ _ => " does not support stop-limit orders"
    | .stopMarket _ => " does not support stop-market orders")

variable {k : OrderKind} {s : Surface}

/-- Only stop orders are unsupported anywhere. -/
theorem UnsupportedOn.needsReference (h : k.UnsupportedOn s) : k.needsReference = true := by
  cases k with
  | market | limit _ _ => exact h.elim
  | stopLimit stop price | stopMarket stop => rfl

end OrderKind

/-- **An order of such a kind cannot be written down**, whatever its reference price. -/
theorem OrderRequest.build_unsupported {s : Surface} {o : Order} (h : o.kind.UnsupportedOn s)
    (symbol : String) (reference : Option Decimal) :
    OrderRequest.build s o symbol reference = .error (o.kind.refusal s) := by
  unfold OrderRequest.build OrderRequest.kindParameters
  cases hkind : o.kind with
  | market | limit _ _ =>
    rw [hkind] at h
    exact h.elim
  | stopLimit stop price =>
    rw [hkind] at h
    simp only [if_pos (show s = .coinFutures from h)]
    rfl
  | stopMarket stop =>
    rw [hkind] at h
    simp only [show s.isFutures = false from h, Bool.false_eq_true, if_false]
    rfl

namespace Orders

/-- Nothing was told, and no order was noted or forgotten. -/
def Silent (s s' : DeskState) : Prop := s'.events = s.events ∧ s'.fills = s.fills

theorem sparesRequests_silent : SparesRequests Silent := fun _ _ _ => ⟨rfl, rfl⟩

/-- The lock on orders is no part of what a silent procedure leaves alone. -/
theorem within_withOrders {α : Type} {x : Deed α} (h : x.Within Silent) :
    (Deed.withOrders x).Within Silent :=
  Act.Within.bind ⟨fun _ _ => ⟨rfl, rfl⟩, fun _ => trivial⟩ fun _ =>
    h.bind fun _ _ => ⟨⟨rfl, rfl⟩, trivial⟩

/-! ## 2. From the lookup to the refusal -/

/-- How the placing of an order ends that the surface does not have.

* `quoted`: the host has a price, and nothing is asked;
* `priced`: the exchange has one;
* `unpriced`: neither has, and that is what is reported;
* `cancelled`: the desk was cancelled while the exchange was asked. -/
inductive Refused (c : Client) (o : Order) (p : Pricing) {α : Type} : Outcome α → Prop
  | quoted : ¬ Unquoted o p.quote → p.asked = [] → Refused c o p (.error (o.kind.refusal c.surface))
  | priced {a : HttpResponse} {price : Decimal} : Unquoted o p.quote → p.Questions →
      lastAnswer "GET" p.asked = some (.ok a) → a.Tells price →
      Refused c o p (.error (o.kind.refusal c.surface))
  | unpriced {answer : Outcome HttpResponse} {e : Fault} : Unquoted o p.quote → p.Questions →
      lastAnswer "GET" p.asked = some answer →
      answer.bind (HttpResponse.toldPrice c.retry.attempts) = .error e → Refused c o p (.error e)
  | cancelled : Unquoted o p.quote → p.Questions → p.met.cancelled = true →
      Refused c o p (.error .cancelled)

section Refused

variable {c : Client} {o : Order} {symbol : String} {p : Pricing}

/-- Later changes of the state make no difference. -/
theorem Refused.after {α : Type} {result : Outcome α} {s s' : DeskState}
    (h : Refused c o p result) : Refused c o (p.after s s') result := by
  cases h with
  | quoted hquoted hasked => exact .quoted hquoted hasked
  | priced hunquoted hquestions hlast htells => exact .priced hunquoted hquestions hlast htells
  | unpriced hunquoted hquestions hlast hfails => exact .unpriced hunquoted hquestions hlast hfails
  | cancelled hunquoted hquestions hcancelled =>
    exact .cancelled hunquoted hquestions (by simp [Pricing.after, hcancelled])

/-- Nothing but the question for the last price is sent for such an order, and that only where the
host has no price. -/
theorem Pricing.Sends.is_question {q : HttpRequest} (h : o.kind.UnsupportedOn c.surface)
    (hsends : p.Sends c o symbol q) : Unquoted o p.quote ∧ p.Questions ∧
      c.toRest.Sends (Pricing.question c.surface symbol) p.met.last q := by
  cases hsends with
  | question hunquoted hquestions hq => exact ⟨hunquoted, hquestions, hq⟩
  | order _ _ hbuild _ _ => cases hbuild.symm.trans (OrderRequest.build_unsupported h ..)

/-- A lookup that the refusal follows. -/
theorem upholds_reference_refusal (h : o.kind.UnsupportedOn c.surface) (host : Host)
    (met : Rest.Encounters) :
    ((c.reference o symbol (Desk.hostPrice host o)).andThen fun _ =>
      (.fail (o.kind.refusal c.surface) : Trial Bool)).Upholds (pricing c o symbol)
        (fun a result => a.Priced (Refused c o · result))
        (.priced ⟨host.quoteOf o.instrument, [], met⟩) := by
  rw [Client.reference, if_pos h.needsReference]
  rcases measured_or_unquoted host o with ⟨price, hknown, -, hmeasured⟩ | ⟨hknown, hunquoted⟩
  · rw [hknown]
    refine ⟨_, rfl, .quoted (fun hunquoted => ?_) rfl⟩
    obtain ⟨a, hlast, -⟩ := (hmeasured []).told hunquoted
    cases hlast
  · rw [hknown]
    refine Act.Upholds.andThen (Act.Upholds.andThen
      ((upholds_lookup hunquoted (Pricing.questions_nil _ _)).mono ?_))
    rintro _ _ ⟨p, rfl, answer, hanswered, rfl⟩
    have hquote : Unquoted o p.quote := hanswered.quote ▸ hunquoted
    rcases hanswered.last with hlast | ⟨rfl, hcancelled⟩
    · cases htold : answer.bind (HttpResponse.toldPrice c.retry.attempts) with
      | error e => exact ⟨p, rfl, .unpriced hquote hanswered.questions hlast htold⟩
      | ok price =>
        cases answer with
        | error e => cases htold
        | ok a =>
          exact ⟨p, rfl, .priced hquote hanswered.questions hlast
            ((HttpResponse.toldPrice_eq_ok_iff _).mp htold)⟩
    · exact ⟨p, rfl, .cancelled hquote hanswered.questions hcancelled⟩

/-- A lookup that the refusal follows tells nothing. -/
theorem within_reference_refusal (c : Client) (o : Order) (symbol : String)
    (known : Option Decimal) (e : Fault) :
    ((c.reference o symbol known).andThen fun _ => (.fail e : Trial Bool)).Within Silent := by
  refine Act.Within.andThen ?_ fun _ => trivial
  unfold Client.reference
  split
  · split
    · trivial
    · refine Act.Within.andThen (Act.Within.andThen
        (Rest.within_request sparesRequests_silent ..) fun j => ?_) fun _ => trivial
      split <;> trivial
  · trivial

end Refused

/-- **Placing such an order is looking up its reference price, and then the refusal.** -/
theorem placing_unsupported (d : Desk) {o : Order} {symbol : String}
    (hsymbol : d.listing.wireSymbol o.instrument = .ok symbol)
    (h : o.kind.UnsupportedOn d.surface) :
    d.placing o = .access id fun s =>
      (d.reference o symbol (Desk.hostPrice s.host o)).andThen fun _ =>
        .fail (o.kind.refusal d.surface) := by
  unfold Desk.placing Client.placeOrder
  simp only [hsymbol, Act.ofOutcome_ok_andThen, OrderRequest.build_unsupported h]
  congr 1
  funext s
  unfold Act.andThen
  rw [Act.bind_assoc]
  congr 1
  funext known
  cases known <;> rfl

/-- **An order of a kind that the surface does not have is refused**, whatever the host and the
exchange say and whatever others do meanwhile: under the lock, where the call comes to its end, and
from the host's call on.  Nothing is sent but the question for the last price, and that only where
the host has no price; nothing is told; and no order is noted or forgotten. -/
theorem unsupported_orders_refused (d : Desk) (o : Order) {symbol : String}
    (hsymbol : d.listing.wireSymbol o.instrument = .ok symbol)
    (h : o.kind.UnsupportedOn d.surface) :
    (∀ (p : Pricing) q, p.Sends d.toClient o symbol q → Unquoted o p.quote ∧ p.Questions ∧
      d.toRest.Sends (Pricing.question d.surface symbol) p.met.last q) ∧
    (d.placing o).Upholds (pricing d.toClient o symbol)
      (fun a result => a.Priced (Refused d.toClient o · result)) .inside ∧
    (d.place o).Keeps (pricing d.toClient o symbol)
      (fun a result => a.Priced (Refused d.toClient o · result)) .outside ∧
    (d.place o).Within Silent := by
  have hplacing : (d.placing o).Upholds (pricing d.toClient o symbol)
      (fun a result => a.Priced (Refused d.toClient o · result)) .inside := by
    rw [placing_unsupported d hsymbol h]
    exact fun s _ => ⟨trivial, upholds_reference_refusal h s.host _⟩
  refine ⟨fun p q hsends => hsends.is_question h, hplacing,
    (Act.keeps_bind _ _).mpr ⟨nofun, fun s _ _ => ⟨trivial, ?_⟩⟩, within_withOrders ?_⟩
  · refine (Act.keeps_bind _ _).mpr (hplacing.keeps.mono ?_)
    rintro _ result ⟨p, rfl, hrefused⟩
    exact fun t _ => ⟨trivial, _, rfl, hrefused.after⟩
  · rw [placing_unsupported d hsymbol h]
    exact fun s => ⟨⟨rfl, rfl⟩, within_reference_refusal ..⟩

/-- An order to buy two as soon as the price has risen to ninety. -/
def etherTouch : Order := { etherOrder with kind := .stopMarket OrderRequest.ninety }

theorem unsupported_orders_refused_touch :
    etherDesk.listing.wireSymbol etherTouch.instrument = .ok "ETHUSDT" ∧
      etherTouch.kind.UnsupportedOn etherDesk.surface ∧
      (etherDesk.place etherTouch).Keeps (pricing etherDesk.toClient etherTouch "ETHUSDT")
        (fun a result => a.Priced (Refused etherDesk.toClient etherTouch · result)) .outside ∧
      (etherDesk.place etherTouch).Within Silent :=
  have hsymbol : etherDesk.listing.wireSymbol etherTouch.instrument = .ok "ETHUSDT" := by
    decide +kernel
  have hkind : etherTouch.kind.UnsupportedOn etherDesk.surface := rfl
  ⟨hsymbol, hkind, (unsupported_orders_refused etherDesk etherTouch hsymbol hkind).2.2⟩

/-- The exchange has no time for questions. -/
def busyAnswer (_ : HttpRequest) : Outcome HttpResponse := .ok ⟨503, "busy"⟩

/-- The order is placed while the host has no price, and nobody else takes a step. -/
def touchPlacing : Option (Report × List (HttpRequest × Outcome HttpResponse) × DeskState) :=
  Crew.alone busyAnswer 0 ((OrderCall.place etherTouch).deed etherDesk) (.start ⟨1, 100⟩ 0)

theorem touchPlacing_eq : (touchPlacing.map fun r =>
    ((match r.1 with
      | .placed (.error e) => some e
      | _ => none), r.2.1.map fun x => (x.1.method, x.1.path, x.1.query))) =
    some (some (Fault.answer 503 "busy"), [("GET", "/api/v3/ticker/price", "symbol=ETHUSDT")]) := by
  decide +kernel

/-- An order that the surface does not have is no reason not to ask the exchange, and fails with
what the exchange says. -/
theorem unsupported_order_asks :
    etherDesk.listing.wireSymbol etherTouch.instrument = .ok "ETHUSDT" ∧
      etherTouch.kind.UnsupportedOn etherDesk.surface ∧
      ∃ c d, Crew.Reached etherDesk c ∧ c.deals = [d] ∧ d.call = .place etherTouch ∧
        (∃ x ∈ d.asked, x.1.method = "GET" ∧ x.1.path = "/api/v3/ticker/price") ∧
        d.report = .placed (.error (.answer 503 "busy")) := by
  refine ⟨by decide +kernel, rfl, ?_⟩
  obtain ⟨r, hrun, hfacts⟩ := Option.map_eq_some_iff.mp touchPlacing_eq
  obtain ⟨hreport, hasked⟩ := Prod.mk.inj hfacts
  obtain ⟨c, told, hreached, -, -, hdeals⟩ :=
    (Crew.reached_start etherDesk ⟨1, 100⟩ 0).call _ hrun
  refine ⟨c, _, hreached, hdeals, rfl, ?_, ?_⟩
  · obtain ⟨x, hx, hfields⟩ : ∃ x ∈ r.2.1, (x.1.method, x.1.path, x.1.query) =
        ("GET", "/api/v3/ticker/price", "symbol=ETHUSDT") := by
      rw [← List.mem_map, hasked]
      exact List.mem_singleton_self _
    obtain ⟨hmethod, hrest⟩ := Prod.mk.inj hfields
    exact ⟨x, hx, hmethod, (Prod.mk.inj hrest).1⟩
  · split at hreport
    · rename_i e hr
      cases hreport
      exact hr
    · cases hreport

end Orders

/-! ## 3. Instruments that are not listed -/

namespace Listing

/-- An instrument that a listing has no symbol for, with the failure that says so: it is of another
kind or market, or its ticker is unknown. -/
inductive Foreign (l : Listing) (i : Instrument) : Fault → Prop
  | market : ¬ (i.security = l.surface.security ∧ i.market = l.surface.market) →
      Foreign l i (.argument (i.readable ++ " cannot be traded through " ++ l.surface.label))
  | ticker : i.security = l.surface.security → i.market = l.surface.market →
      l.byTicker.get? i.ticker = none → Foreign l i (.unknownTicker i.ticker)

theorem wireSymbol_eq_error_iff {l : Listing} {i : Instrument} {e : Fault} :
    l.wireSymbol i = .error e ↔ l.Foreign i e := by
  unfold wireSymbol
  constructor
  · intro h
    split at h
    · rename_i hown
      obtain ⟨hsecurity, hmarket⟩ := isOwn_iff.mp hown
      split at h
      · cases h
      · rename_i hnone
        cases h
        exact .ticker hsecurity hmarket hnone
    · rename_i hother
      cases h
      exact .market (hother ∘ isOwn_iff.mpr)
  · rintro (hother | ⟨hsecurity, hmarket, hnone⟩)
    · rw [if_neg (hother ∘ isOwn_iff.mp)]
    · rw [if_pos (isOwn_iff.mpr ⟨hsecurity, hmarket⟩), hnone]

end Listing

namespace Orders

/-- The watch under which nothing happens: nothing is sent, nothing breaks down, and nothing
changes but the lock on orders. -/
def idle : Watch DeskState Unit where
  meets _ _ := True
  answers _ _ := True
  allows s s' := ∃ orderLock, s' = { s with orderLock }
  changed k _ _ := k
  heard k _ _ := k
  halfway _ := False
  passed k _ := k
  sends _ _ := False

section Idle

variable {α β : Type} {post : α → Prop} {x : Deed α}

/-- **The lock makes no difference to who is idle.** -/
theorem keeps_idle_withOrders :
    (Deed.withOrders x).Keeps idle (fun _ a => post a) () ↔
      x.Keeps idle (fun _ a => post a) () := by
  have hgiven : ∀ a, (Deed.unlockOrders.bind fun _ => Act.done a).Keeps idle
      (fun _ a => post a) () ↔ post a := fun a =>
    ⟨fun h => (h (.start ⟨1, 1⟩ 0) trivial).2, fun h s _ => ⟨⟨none, rfl⟩, h⟩⟩
  have hheld : (x.bind fun a => Deed.unlockOrders.bind fun _ => Act.done a).Keeps idle
      (fun _ a => post a) () ↔ x.Keeps idle (fun _ a => post a) () := by
    rw [Act.keeps_bind]
    exact ⟨Act.Keeps.mono fun _ a => (hgiven a).mp, Act.Keeps.mono fun _ a => (hgiven a).mpr⟩
  unfold Deed.withOrders
  rw [Act.keeps_bind]
  constructor
  · intro h
    exact hheld.mp (h.2 (.start ⟨1, 1⟩ 0) trivial rfl).2
  · exact fun h => ⟨nofun, fun s _ _ => ⟨⟨some s.actor, rfl⟩, hheld.mpr h⟩⟩

/-- Who starts with something that is not idle is not idle. -/
theorem not_keeps_andThen {x : Trial α} {f : α → Trial β} {post' : Unit → Outcome β → Prop}
    (h : ∀ post, ¬ x.Keeps idle post ()) : ¬ (x.andThen f).Keeps idle post' () :=
  fun hkeeps => h _ ((Act.keeps_bind _ _).mp hkeeps)

/-- **A request is not idle**: to begin with, it passes the gate. -/
theorem not_keeps_deed (r : Rest) (c : Rest.Call) (post : Unit → Outcome HttpResponse → Prop) :
    ¬ (c.deed r).Keeps idle post () := by
  have hattempt : ∀ payload post,
      ¬ (r.attempt c.method c.path payload c.access).Keeps idle post () := by
    intro payload post h
    obtain ⟨-, hpasses⟩ := h (.start ⟨1, 1⟩ 0) trivial
    obtain ⟨⟨orderLock, hsame⟩, -⟩ := hpasses (.start ⟨1, 1⟩ 0) trivial
    have harrival : some _ = none := congrArg (·.gate.arrival) hsame
    cases harrival
  unfold Rest.Call.deed Rest.execute
  split
  · cases r.retry.attempts - 1 with
    | zero => exact hattempt _ _
    | succ left => exact not_keeps_andThen (hattempt _)
  · exact id

end Idle

variable {d : Desk} {o : Order} {e : Fault} {brokerId : String}

/-- Placing a foreign order is failing. -/
theorem placing_foreign (h : d.listing.wireSymbol o.instrument = .error e) :
    d.placing o = .access id fun _ => .done (.error e) := by
  unfold Desk.placing Client.placeOrder
  rw [h]
  rfl

/-- Cancelling is failing where it cannot be decided what to ask for. -/
theorem canceling_of_error (h : d.toClient.cancellation o = .error e) :
    d.canceling o = .done (.error e) := by
  unfold Desk.canceling Client.cancelOrder
  rw [h]
  rfl

/-- Where it can, a request is on its way. -/
theorem not_keeps_canceling {target : String × Parameters}
    (h : d.toClient.cancellation o = .ok target) (post : Unit → Outcome Bool → Prop) :
    ¬ (d.canceling o).Keeps idle post () := by
  unfold Desk.canceling Client.cancelOrder
  rw [h, Act.ofOutcome_ok_andThen]
  exact not_keeps_andThen fun _ => not_keeps_andThen fun _ => not_keeps_andThen
    (not_keeps_deed d.toRest ⟨"DELETE", target.1, target.2, .signed⟩)

/-- What a foreign order is cancelled by: nothing, unless it is kept apart. -/
theorem cancellation_foreign (h : d.listing.wireSymbol o.instrument = .error e)
    (hid : o.brokerIds.head? = some brokerId) :
    (o.kind.isAlgoOn d.surface = false → d.toClient.cancellation o = .error e) ∧
      (o.kind.isAlgoOn d.surface = true → ∃ path, d.surface.algoOrderPath? = some path ∧
        d.toClient.cancellation o = .ok (path, [("algoId", brokerId)])) := by
  obtain ⟨rest, hids⟩ := List.head?_eq_some_iff.mp hid
  unfold Client.cancellation OrderKind.isAlgoOn
  rw [hids]
  cases hpath : d.surface.algoOrderPath? with
  | none => exact ⟨fun _ => by simp [h, Except.map], nofun⟩
  | some path =>
    cases hstop : o.kind.stop? with
    | none => exact ⟨fun _ => by simp [h, Except.map], nofun⟩
    | some stop => exact ⟨nofun, fun _ => ⟨path, rfl, rfl⟩⟩

/-- **An order on an instrument that is not listed is neither placed nor cancelled, unless it is
kept apart**: the calls fail with what the listing says, and nothing else happens, under the lock
and from the host's call on.  An order that is kept apart is not placed either, but it is cancelled
by its id, whatever its instrument. -/
theorem foreign_orders_refused (d : Desk) (o : Order) {e : Fault} {brokerId : String}
    (hforeign : d.listing.Foreign o.instrument e) (hid : o.brokerIds.head? = some brokerId) :
    (d.placing o).Upholds idle (fun _ result => result = .error e) () ∧
    (d.place o).Keeps idle (fun _ result => result = .error e) () ∧
    ((d.canceling o).Upholds idle (fun _ result => result = .error e) () ↔
      o.kind.isAlgoOn d.surface = false) ∧
    ((d.cancel o).Keeps idle (fun _ result => result = .error e) () ↔
      o.kind.isAlgoOn d.surface = false) ∧
    (o.kind.isAlgoOn d.surface = true → ∃ path, d.surface.algoOrderPath? = some path ∧
      d.toClient.CancelsBy o (path, [("algoId", brokerId)])) := by
  have hsymbol := Listing.wireSymbol_eq_error_iff.mpr hforeign
  obtain ⟨hregular, hapart⟩ := cancellation_foreign hsymbol hid
  have hplacing : (d.placing o).Upholds idle (fun _ result => result = .error e) () := by
    rw [placing_foreign hsymbol]
    exact fun s _ => ⟨⟨s.orderLock, rfl⟩, rfl⟩
  have hrefused : o.kind.isAlgoOn d.surface = false →
      (d.canceling o).Upholds idle (fun _ result => result = .error e) () := by
    intro halgo
    rw [canceling_of_error (hregular halgo)]
    rfl
  have hregular_of : (d.canceling o).Keeps idle (fun _ result => result = .error e) () →
      o.kind.isAlgoOn d.surface = false := by
    intro hkeeps
    cases halgo : o.kind.isAlgoOn d.surface with
    | false => rfl
    | true =>
      obtain ⟨path, -, htarget⟩ := hapart halgo
      exact absurd hkeeps (not_keeps_canceling htarget _)
  refine ⟨hplacing, keeps_idle_withOrders.mpr hplacing.keeps,
    ⟨fun h => hregular_of h.keeps, hrefused⟩,
    ⟨fun h => hregular_of (keeps_idle_withOrders.mp h),
      fun h => keeps_idle_withOrders.mpr (hrefused h).keeps⟩, fun halgo => ?_⟩
  obtain ⟨path, hpath, htarget⟩ := hapart halgo
  exact ⟨path, hpath, .of_cancellation htarget⟩

/-- The order of ether, on another market. -/
def elsewhereOrder : Order :=
  { etherOrder with instrument := ⟨"ETHUSDT", .crypto, "elsewhere"⟩, brokerIds := ["42"] }

theorem foreign_orders_refused_elsewhere :
    etherDesk.listing.Foreign elsewhereOrder.instrument
        (.argument "ETHUSDT (Crypto, elsewhere) cannot be traded through binance-spot") ∧
      elsewhereOrder.brokerIds.head? = some "42" ∧
      (etherDesk.cancel elsewhereOrder).Keeps idle (fun _ result => result = .error
        (.argument "ETHUSDT (Crypto, elsewhere) cannot be traded through binance-spot")) () := by
  have hforeign : etherDesk.listing.Foreign elsewhereOrder.instrument
      (.argument "ETHUSDT (Crypto, elsewhere) cannot be traded through binance-spot") :=
    Listing.wireSymbol_eq_error_iff.mp (by decide +kernel)
  have hid : elsewhereOrder.brokerIds.head? = some "42" := rfl
  obtain ⟨-, -, -, hcancel, -⟩ := foreign_orders_refused etherDesk elsewhereOrder hforeign hid
  exact ⟨hforeign, hid, hcancel.mpr rfl⟩

/-- A desk for ether contracts. -/
def etherContractsDesk : Desk :=
  ⟨Client.etherContractsClient, .readOnly .usdtFutures, .standard⟩

/-- A stop order for coins, that came to the desk for contracts. -/
def strayOrder : Order :=
  { Client.apartOrder Client.stopAtNinety with instrument := ⟨"ETHUSDT", .crypto, "binance"⟩ }

/-- It is cancelled, and nobody else takes a step. -/
def strayCanceling : Option (Report × List (HttpRequest × Outcome HttpResponse) × DeskState) :=
  Crew.alone etherAnswer 0 ((OrderCall.cancel strayOrder).deed etherContractsDesk)
    (.start ⟨1, 100⟩ 0)

theorem strayCanceling_eq : (strayCanceling.map fun r =>
    ((match r.1 with
      | .canceled (.ok true) => true
      | _ => false), r.2.1.map (fun x => (x.1.method, x.1.path)), r.2.2.events.length)) =
    some (true, [("DELETE", "/fapi/v1/algoOrder")], 1) := by decide +kernel

/-- An order is cancelled on an instrument that the desk cannot trade, and the host is told. -/
theorem stray_order_canceled :
    (∃ e, etherContractsDesk.listing.Foreign strayOrder.instrument e) ∧
      strayOrder.brokerIds.head? = some "2146760" ∧
      ∃ c d, Crew.Reached etherContractsDesk c ∧ c.deals = [d] ∧ d.call = .cancel strayOrder ∧
        (∃ x ∈ d.asked, x.1.method = "DELETE" ∧ x.1.path = "/fapi/v1/algoOrder") ∧
        d.report = .canceled (.ok true) ∧ c.state.events ≠ [] := by
  refine ⟨⟨_, .market (by decide +kernel)⟩, rfl, ?_⟩
  obtain ⟨r, hrun, hfacts⟩ := Option.map_eq_some_iff.mp strayCanceling_eq
  obtain ⟨hreport, hrest⟩ := Prod.mk.inj hfacts
  obtain ⟨hasked, hevents⟩ := Prod.mk.inj hrest
  obtain ⟨c, told, hreached, hstate, -, hdeals⟩ :=
    (Crew.reached_start etherContractsDesk ⟨1, 100⟩ 0).call _ hrun
  refine ⟨c, _, hreached, hdeals, rfl, ?_, ?_, ?_⟩
  · obtain ⟨x, hx, hfields⟩ : ∃ x ∈ r.2.1, (x.1.method, x.1.path) =
        ("DELETE", "/fapi/v1/algoOrder") := by
      rw [← List.mem_map, hasked]
      exact List.mem_singleton_self _
    exact ⟨x, hx, Prod.mk.inj hfields⟩
  · split at hreport
    · rename_i hr
      exact hr
    · cases hreport
  · rw [hstate]
    intro hnone
    rw [hnone] at hevents
    cases hevents

end Orders
end OrderDesk
