import OrderDesk.Client.Orders
import OrderDesk.Proofs.Listing
import OrderDesk.Proofs.Rest.Signatures

/-!
# Where orders are cancelled

Some surfaces keep stop orders apart: these are placed at an address of their own, listed with an id
of their own, and have to be cancelled there.  Three places decide whether an order is such a one:
placing goes by its kind and the surface, a listing by the key of the id in the document, and
cancelling by its kind again.

What was placed is cancelled where it was placed, and what was listed is cancelled where it lives as
long as the exchange keeps apart just the stop orders that it has a name for (`WireOrder.InPlace`,
`cancelled_in_place`).  An order of a type that is not among them has no kind to tell, and one that
lives apart is not found where it is looked for (`trailing_stop_missed`).
-/

namespace OrderDesk

/-! ## 1. Types of stop orders -/

/-- The types that a listing of contracts takes for stop orders. -/
def stopTypes : List String :=
  ["STOP", "TAKE_PROFIT", "STOP_LOSS", "STOP_MARKET", "TAKE_PROFIT_MARKET", "STOP_LOSS_LIMIT",
    "TAKE_PROFIT_LIMIT"]

/-- Orders of this type are kept apart on the surface. -/
def Surface.keepsApart (s : Surface) (kind : String) : Bool :=
  s.algoOrderPath?.isSome && stopTypes.contains kind

/-- A document has the shape that orders of its type have on the surface. -/
def WireOrder.InPlace (s : Surface) (w : WireOrder) : Prop := w.isAlgo = s.keepsApart w.kind

/-- Only contracts have stop orders that are kept apart. -/
theorem Surface.isFutures_of_algoOrderPath? {s : Surface} (h : s.algoOrderPath?.isSome = true) :
    s.isFutures = true := by
  cases s <;> first | rfl | cases h

/-- **The kind that is read tells what is kept apart.** -/
theorem OrderKind.isAlgoOn_ofWire (s : Surface) (kind : String) (price stop : Decimal) :
    (OrderKind.ofWire s kind price stop).isAlgoOn s = s.keepsApart kind := by
  unfold isAlgoOn Surface.keepsApart
  cases hpath : s.algoOrderPath?.isSome with
  | false => rfl
  | true =>
    have hfutures := Surface.isFutures_of_algoOrderPath? hpath
    rw [Bool.true_and, Bool.true_and]
    unfold ofWire
    split <;> simp_all [stopTypes, stop?]

/-! ## 2. Cancelling -/

namespace Client

/-- Where an order is cancelled that lives apart or with the others, and with which parameters. -/
def cancelTarget (s : Surface) (isAlgo : Bool) (symbol brokerId : String) : String × Parameters :=
  match s.algoOrderPath?, isAlgo with
  | some path, true => (path, [("algoId", brokerId)])
  | _, _ => (s.orderPath, [("symbol", symbol), ("orderId", brokerId)])

variable {c : Client} {o : Order} {symbol brokerId : String} {path : String} {ps : Parameters}

/-- Cancelling an order asks for this at this address, and for nothing else. -/
def CancelsBy (c : Client) (o : Order) (target : String × Parameters) : Prop :=
  c.cancellation o = .ok target ∧ ∀ k, (c.cancelOrder o).Upholds
    (Rest.sending c.toRest ⟨"DELETE", target.1, target.2, .signed⟩) (fun _ _ => True) k

/-- Whatever is told to the host, nothing leaves. -/
theorem upholds_sending_modify (call : Rest.Call) (f : DeskState → DeskState) (k : Rest.Encounters) :
    (Act.modify f).Upholds (Rest.sending c.toRest call) (fun _ _ => True) k :=
  fun _ _ => ⟨trivial, trivial⟩

/-- **What is decided is what is sent.** -/
theorem CancelsBy.of_cancellation {target : String × Parameters}
    (h : c.cancellation o = .ok target) : c.CancelsBy o target := by
  refine ⟨h, fun k => ?_⟩
  unfold cancelOrder submit
  rw [h, Act.ofOutcome_ok_andThen]
  refine Act.Upholds.andThen (Act.Upholds.andThen
    ((Rest.upholds_sending c.toRest ⟨"DELETE", target.1, target.2, .signed⟩ k).mono ?_))
  intro k answer _
  cases answer with
  | error e => trivial
  | ok a =>
    dsimp only
    cases verdict c.retry.attempts a with
    | error e => trivial
    | ok v =>
      cases v with
      | accepted body =>
        exact (Act.upholds_bind _ _).mpr (upholds_sending_modify _ _ k)
      | rejected cause =>
        exact (Act.upholds_bind _ _).mpr (upholds_sending_modify _ _ k)

/-- An order that goes by a wire symbol is cancelled where orders of its kind live. -/
theorem cancellation_eq (hsymbol : c.listing.wireSymbol o.instrument = .ok symbol)
    (hid : o.brokerIds.head? = some brokerId) :
    c.cancellation o = .ok (cancelTarget c.surface (o.kind.isAlgoOn c.surface) symbol brokerId) := by
  unfold cancellation cancelTarget OrderKind.isAlgoOn
  cases hids : o.brokerIds with
  | nil =>
    rw [hids] at hid
    cases hid
  | cons first rest =>
    rw [hids] at hid
    cases hid
    cases c.surface.algoOrderPath? with
    | none =>
      rw [hsymbol]
      rfl
    | some path =>
      cases o.kind.stop? with
      | none =>
        rw [hsymbol]
        rfl
      | some stop => rfl

/-! ## 3. What was placed, and what was listed -/

/-- A request says where its order is cancelled. -/
theorem cancelTarget_build {s : Surface} {reference : Option Decimal} {r : OrderRequest}
    (h : OrderRequest.build s o symbol reference = .ok r) :
    cancelTarget s (o.kind.isAlgoOn s) symbol brokerId =
      (r.path, if r.isAlgo then [("algoId", brokerId)]
        else [("symbol", symbol), ("orderId", brokerId)]) := by
  unfold OrderRequest.build at h
  cases hown : OrderRequest.kindParameters s o reference with
  | error e =>
    rw [hown] at h
    cases h
  | ok own =>
    rw [hown] at h
    cases h
    unfold cancelTarget OrderRequest.pathOf OrderKind.isAlgoOn
    dsimp only
    cases s.algoOrderPath? with
    | none => rfl
    | some path => cases o.kind.stop? <;> rfl

/-- The host's view of one document. -/
def shown (l : Listing) (j : Json) : Outcome OpenOrder :=
  (WireOrder.ofJson j).bind fun w => w.openOrder l

/-- **A list is the host's view of each of its documents**, in their order. -/
theorem openOrdersOf_eq_ok_iff {l : Listing} {js : List Json} {os : List OpenOrder} :
    openOrdersOf l js = .ok os ↔ List.Forall₂ (fun j o => shown l j = .ok o) js os := by
  unfold openOrdersOf
  show js.mapM (shown l) = .ok os ↔ _
  induction js generalizing os with
  | nil =>
    rw [List.mapM_nil, List.forall₂_nil_left_iff]
    exact ⟨fun h => (Except.ok.inj h).symm, fun h => congrArg Except.ok h.symm⟩
  | cons j js ih =>
    rw [List.mapM_cons, List.forall₂_cons_left_iff]
    cases hfirst : shown l j with
    | error e =>
      refine ⟨nofun, ?_⟩
      rintro ⟨o, others, ho, -⟩
      cases ho
    | ok first =>
      show ((js.mapM (shown l)).bind fun others => Except.ok (first :: others)) = .ok os ↔ _
      cases hrest : js.mapM (shown l) with
      | error e =>
        refine ⟨nofun, ?_⟩
        rintro ⟨o, others, -, hothers, -⟩
        cases hrest.symm.trans (ih.mpr hothers)
      | ok others =>
        constructor
        · intro h
          exact ⟨first, others, rfl, ih.mp hrest, (Except.ok.inj h).symm⟩
        · rintro ⟨o, others', ho, hothers, rfl⟩
          cases ho
          cases hrest.symm.trans (ih.mpr hothers)
          rfl

/-- The host's view of a document comes from an order that was read. -/
theorem shown_eq_ok {l : Listing} {j : Json} {o : OpenOrder} (h : shown l j = .ok o) :
    ∃ w, WireOrder.ofJson j = .ok w ∧ w.openOrder l = .ok o := by
  unfold shown at h
  cases hw : WireOrder.ofJson j with
  | error e =>
    rw [hw] at h
    cases h
  | ok w =>
    rw [hw] at h
    exact ⟨w, rfl, h⟩

/-- Every order of a list comes from a document. -/
theorem exists_of_mem_openOrdersOf {l : Listing} {js : List Json} {os : List OpenOrder}
    (h : openOrdersOf l js = .ok os) {o : OpenOrder} (ho : o ∈ os) :
    ∃ j ∈ js, ∃ w, WireOrder.ofJson j = .ok w ∧ w.openOrder l = .ok o := by
  replace h := openOrdersOf_eq_ok_iff.mp h
  induction h with
  | nil => cases ho
  | @cons j first js others hfirst hothers ih =>
    rcases List.mem_cons.mp ho with rfl | hmem
    · exact ⟨j, List.mem_cons_self, shown_eq_ok hfirst⟩
    · obtain ⟨j', hj', hfound⟩ := ih hmem
      exact ⟨j', List.mem_cons_of_mem j hj', hfound⟩

/-- A side that is read is one of two. -/
theorem direction_ofWire_eq_ok {side : String} {d : Direction} (h : Direction.ofWire side = .ok d) :
    side = "BUY" ∧ d = .buy ∨ side = "SELL" ∧ d = .sell := by
  unfold Direction.ofWire Direction.ofWire? at h
  split at h
  · rename_i hside
    split at hside
    · cases hside
      cases h
      exact Or.inl ⟨rfl, rfl⟩
    · cases hside
      cases h
      exact Or.inr ⟨rfl, rfl⟩
    · cases hside
  · cases h

/-- The host's view of an order. -/
theorem openOrder_eq_ok {l : Listing} {w : WireOrder} {o : OpenOrder} (h : w.openOrder l = .ok o) :
    o.brokerId = w.id ∧ o.isAlgo = w.isAlgo ∧ l.instrument w.symbol = .ok o.instrument ∧
      o.kind = .ofWire l.surface w.kind w.price w.stop ∧
      Direction.ofWire w.side = .ok o.direction ∧ o.quantity = o.direction.signed w.quantity := by
  unfold WireOrder.openOrder at h
  cases hside : Direction.ofWire w.side with
  | error e =>
    rw [hside] at h
    cases h
  | ok direction =>
    cases hinstrument : l.instrument w.symbol with
    | error e =>
      rw [hside, hinstrument] at h
      cases h
    | ok instrument =>
      rw [hside, hinstrument] at h
      cases h
      exact ⟨rfl, rfl, rfl, rfl, rfl, rfl⟩

/-- A host's order that was made from a listed one. -/
structure RebuiltFrom (o : Order) (listed : OpenOrder) : Prop where
  instrument : o.instrument = listed.instrument
  kind : o.kind = listed.kind
  brokerId : o.brokerIds.head? = some listed.brokerId

/-- **What was listed is cancelled where orders of its type live**, under the symbol that it was
listed with. -/
theorem cancelsBy_listed (hreturns : c.listing.Returns) {w : WireOrder} {listed : OpenOrder}
    (hlisted : w.openOrder c.listing = .ok listed) (ho : RebuiltFrom o listed) :
    c.CancelsBy o (cancelTarget c.surface (c.surface.keepsApart w.kind) w.symbol
      listed.brokerId) := by
  obtain ⟨-, -, hinstrument, hkind, -⟩ := openOrder_eq_ok hlisted
  have hsymbol : c.listing.wireSymbol o.instrument = .ok w.symbol := by
    rw [ho.instrument]
    exact hreturns.wireSymbol_of_instrument hinstrument
  have hplace : o.kind.isAlgoOn c.surface = c.surface.keepsApart w.kind := by
    rw [ho.kind, hkind]
    exact OrderKind.isAlgoOn_ofWire ..
  rw [← hplace]
  exact .of_cancellation (cancellation_eq hsymbol ho.brokerId)

/-- An order is cancelled with an id of its own kind only where it lives apart. -/
theorem cancelTarget_eq_algo_iff {s : Surface} {isAlgo : Bool} :
    (∃ path, s.algoOrderPath? = some path ∧
      cancelTarget s isAlgo symbol brokerId = (path, [("algoId", brokerId)])) ↔
      (s.algoOrderPath?.isSome && isAlgo) = true := by
  unfold cancelTarget
  cases hpath : s.algoOrderPath? with
  | none => simp
  | some path => cases isAlgo <;> simp

/-- **Orders are cancelled where they live**, on every surface:

* what was placed is cancelled where it was placed, with the id that was given to it;
* what was listed is cancelled where orders of its type live, and so, if its document is in place,
  with an id of their own just if it lives apart. -/
theorem cancelled_in_place (r : Rest) (surface : Surface) (symbols : List ListedSymbol) :
    let c : Client := ⟨r, .ofSymbols surface symbols⟩
    (∀ o symbol reference request, c.listing.wireSymbol o.instrument = .ok symbol →
      OrderRequest.build surface o symbol reference = .ok request →
      ∀ brokerId rest, c.CancelsBy { o with brokerIds := brokerId :: rest }
        (request.path, if request.isAlgo then [("algoId", brokerId)]
          else [("symbol", symbol), ("orderId", brokerId)])) ∧
    ∀ js os, openOrdersOf c.listing js = .ok os → ∀ listed ∈ os,
      ∃ j ∈ js, ∃ w, WireOrder.ofJson j = .ok w ∧ w.openOrder c.listing = .ok listed ∧
        ∀ o, RebuiltFrom o listed →
          let target := cancelTarget surface (surface.keepsApart w.kind) w.symbol listed.brokerId
          c.CancelsBy o target ∧ (w.InPlace surface →
            ((∃ path, surface.algoOrderPath? = some path ∧
              target = (path, [("algoId", listed.brokerId)])) ↔ listed.isAlgo = true)) := by
  intro c
  have hsurface : c.surface = surface := Listing.surface_ofSymbols surface symbols
  constructor
  · intro o symbol reference request hsymbol hbuild brokerId rest
    rw [← cancelTarget_build hbuild, ← hsurface]
    exact .of_cancellation
      (cancellation_eq (o := { o with brokerIds := brokerId :: rest }) hsymbol rfl)
  · intro js os hos listed hlisted
    obtain ⟨j, hj, w, hw, hopen⟩ := exists_of_mem_openOrdersOf hos hlisted
    refine ⟨j, hj, w, hw, hopen, fun o ho => ⟨?_, fun hplace => ?_⟩⟩
    · rw [← hsurface]
      exact cancelsBy_listed (Listing.returns_ofSymbols surface symbols) hopen ho
    · obtain ⟨-, halgo, -, -⟩ := openOrder_eq_ok hopen
      rw [cancelTarget_eq_algo_iff, halgo, hplace]
      simp [Surface.keepsApart]

/-! ## 4. Orders in place, and one that is not -/

/-- A listing of ether contracts. -/
def etherContractsListed : List ListedSymbol :=
  [⟨"ETHUSDT", "ETH", "USDT", none, some "PERPETUAL", some "ETHUSDT"⟩]

/-- A client for ether contracts. -/
def etherContractsClient : Client :=
  ⟨⟨"binance-usdt-futures", some ⟨"key", "secret", none⟩, .standard⟩,
    .ofSymbols .usdtFutures etherContractsListed⟩

/-- An order of this type that lives apart, as the exchange lists it. -/
def apartDocument (kind : String) : Json :=
  .object [("algoId", .ofNat 2146760), ("symbol", .string "ETHUSDT"), ("quantity", .string "2"),
    ("triggerPrice", .string "90"), ("algoStatus", .string "NEW"), ("orderType", .string kind),
    ("side", .string "SELL"), ("createTime", .ofInt 1700000000000)]

/-- What the host sees of it. -/
def apartSeen (kind : OrderKind) : OpenOrder :=
  ⟨"2146760", true, ⟨"ETHUSDT", .cryptoFuture, "binance"⟩, .sell,
    (Decimal.ofInt? (-2)).getD .zero, .zero, kind, "NEW", .ofMillis 1700000000000⟩

/-- The host's order for it. -/
def apartOrder (kind : OrderKind) : Order :=
  ⟨1, ⟨"ETHUSDT", .cryptoFuture, "binance"⟩, .sell, (Decimal.ofInt? 2).getD .zero, kind,
    .goodTilCanceled, ["2146760"], .epoch⟩

/-- A stop at ninety. -/
def stopAtNinety : OrderKind := .stopMarket ((Decimal.ofInt? 90).getD .zero)

/-- The request for it. -/
def stopAtNinetyRequest : OrderRequest :=
  ⟨"/fapi/v1/algoOrder", [("symbol", "ETHUSDT"), ("quantity", "2"), ("side", "SELL"),
    ("type", "STOP_MARKET"), ("algoType", "CONDITIONAL"), ("triggerPrice", "90")], true⟩

/-- A stop order is cancelled where it was placed, and where it was found. -/
theorem cancelled_in_place_stop :
    etherContractsClient.listing.wireSymbol (apartOrder stopAtNinety).instrument = .ok "ETHUSDT" ∧
      OrderRequest.build .usdtFutures (apartOrder stopAtNinety) "ETHUSDT" (Decimal.ofInt? 100) =
        .ok stopAtNinetyRequest ∧
      etherContractsClient.CancelsBy (apartOrder stopAtNinety)
        (stopAtNinetyRequest.path, [("algoId", "2146760")]) ∧
      openOrdersOf etherContractsClient.listing [apartDocument "STOP_MARKET"] =
        .ok [apartSeen stopAtNinety] ∧
      etherContractsClient.CancelsBy (apartOrder stopAtNinety)
        ("/fapi/v1/algoOrder", [("algoId", "2146760")]) ∧
      (apartSeen stopAtNinety).isAlgo = true := by
  obtain ⟨hplaced, hfound⟩ := cancelled_in_place etherContractsClient.toRest .usdtFutures
    etherContractsListed
  have hsymbol : etherContractsClient.listing.wireSymbol (apartOrder stopAtNinety).instrument =
      .ok "ETHUSDT" := by decide +kernel
  have hbuild : OrderRequest.build .usdtFutures (apartOrder stopAtNinety) "ETHUSDT"
      (Decimal.ofInt? 100) = .ok stopAtNinetyRequest := by decide +kernel
  have hlist : openOrdersOf etherContractsClient.listing [apartDocument "STOP_MARKET"] =
      .ok [apartSeen stopAtNinety] := by decide +kernel
  refine ⟨hsymbol, hbuild, hplaced _ _ _ _ hsymbol hbuild "2146760" [], hlist, ?_⟩
  obtain ⟨j, hj, w, hw, -, hall⟩ := hfound _ _ hlist _ List.mem_cons_self
  obtain rfl := List.mem_singleton.mp hj
  have hread : w.kind = "STOP_MARKET" ∧ w.isAlgo = true := by
    have h : (WireOrder.ofJson (apartDocument "STOP_MARKET")).map (fun w => (w.kind, w.isAlgo)) =
        .ok ("STOP_MARKET", true) := by decide +kernel
    rw [hw] at h
    simpa using Except.ok.inj h
  obtain ⟨hcancels, hiff⟩ := hall (apartOrder stopAtNinety) ⟨rfl, rfl, rfl⟩
  have hplace : w.InPlace .usdtFutures := by
    rw [WireOrder.InPlace, hread.1, hread.2]
    decide
  obtain ⟨path, hpath, htarget⟩ := (hiff hplace).mpr rfl
  cases hpath
  rw [htarget] at hcancels
  exact ⟨hcancels, rfl⟩

/-- **A stop order that trails is looked for in the wrong place**: it lives apart, but is listed
without a kind that says so, and what is cancelled is the order of that number among the others. -/
theorem trailing_stop_missed :
    openOrdersOf etherContractsClient.listing [apartDocument "TRAILING_STOP_MARKET"] =
        .ok [apartSeen .market] ∧
      (apartSeen .market).isAlgo = true ∧ RebuiltFrom (apartOrder .market) (apartSeen .market) ∧
      etherContractsClient.CancelsBy (apartOrder .market)
        ("/fapi/v1/order", [("symbol", "ETHUSDT"), ("orderId", "2146760")]) :=
  ⟨by decide +kernel, rfl, ⟨rfl, rfl, rfl⟩, .of_cancellation (by decide +kernel)⟩

end Client
end OrderDesk
