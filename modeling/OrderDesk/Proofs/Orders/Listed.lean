import OrderDesk.Proofs.Orders.Cancelling
import OrderDesk.Proofs.Orders.Documents
import OrderDesk.Proofs.Rest.Signatures

/-!
# What a list of open orders shows

The open orders of an account come from one address or, where stop orders are kept apart, from two.
What comes from either is a list of documents of any kind, and the host sees one order for each
document, those that are kept apart after the others.

Nothing is left out: either each document of the lists is shown (`Shows`), or the whole call fails,
and that just if some document cannot be shown.  There are four reasons for this (`Faulty`): it has
no id, it lacks something that its shape asks for, its side is neither of the two, or its symbol is
not known.  Which of them a document with several faults fails for is left open, and so is which of
several faulty documents is reported.

The list that belongs to an answer is what its text says.  A request may also fail on its way, be it
that the desk is cancelled or that the exchange turns it down; here both are answered, and what is
shown is a matter of the documents alone (`upholds_openOrders`).
-/

namespace OrderDesk

open OrderDesk.Json

variable {l : Listing} {fs : List (String × Json)} {j : Json} {js : List Json}

/-! ## 1. Documents that are shown -/

/-- A document cannot be shown. -/
inductive Faulty (l : Listing) : Json → Prop
  | nameless {j : Json} : j.get? "algoId" = none → j.get? "orderId" = none → Faulty l j
  | incomplete {fs : List (String × Json)} : (∀ n, ¬(DocumentShape.of fs).Complete fs n) →
      Faulty l (.object fs)
  | sideless {fs : List (String × Json)} {side : String} : Sole fs "side" (.string side) →
      side ≠ "BUY" → side ≠ "SELL" → Faulty l (.object fs)
  | unlisted {fs : List (String × Json)} {symbol : String} : Sole fs "symbol" (.string symbol) →
      l.entry? symbol = none → Faulty l (.object fs)

/-- The host sees what a document says.

* `id`, `isAlgo`: the id is that of a stop order that is kept apart, if there is one;
* `quantity`: what is sold counts as negative;
* `symbol`: the instrument leads back to the symbol. -/
structure Shows (l : Listing) (fs : List (String × Json)) (o : OpenOrder) : Prop where
  id : ∃ n, Sole fs (if (fs.lookup "algoId").isSome then "algoId" else "orderId") (.ofNat n) ∧
    o.brokerId = Text.ofNat n
  isAlgo : o.isAlgo = (fs.lookup "algoId").isSome
  quantity : ∃ d, Holds fs (DocumentShape.of fs).quantity Decimal.ofJsonString d ∧
    (Sole fs "side" (.string "BUY") ∧ o.quantity = d.abs ∨
      Sole fs "side" (.string "SELL") ∧ o.quantity = -d.abs)
  symbol : ∃ symbol, Sole fs "symbol" (.string symbol) ∧ l.wireSymbol o.instrument = .ok symbol

theorem DocumentShape.id_of (fs : List (String × Json)) :
    (DocumentShape.of fs).id = if (fs.lookup "algoId").isSome then "algoId" else "orderId" :=
  apply_ite DocumentShape.id _ _ _

theorem DocumentShape.of_eq_algo_iff :
    DocumentShape.of fs = .algo ↔ (fs.lookup "algoId").isSome = true := by
  unfold DocumentShape.of
  split
  · rename_i hapart
    exact iff_of_true rfl hapart
  · rename_i hapart
    exact iff_of_false (by simp [algo, regular]) hapart

namespace Client

/-- Only an object with an id is read. -/
theorem object_of_shown {o : OpenOrder} (h : shown l j = .ok o) :
    ∃ fs w, j = .object fs ∧ WireOrder.ofJson (.object fs) = .ok w ∧ w.openOrder l = .ok o := by
  obtain ⟨w, hw, hopen⟩ := shown_eq_ok h
  cases j with
  | object fs => exact ⟨fs, w, rfl, hw, hopen⟩
  | _ => cases hw

/-- **What the host sees is what the document says.** -/
theorem shows_of_shown (hreturns : l.Returns) {o : OpenOrder} (h : shown l j = .ok o) :
    ∃ fs, j = .object fs ∧ Shows l fs o := by
  obtain ⟨fs, w, rfl, hw, hopen⟩ := object_of_shown h
  obtain ⟨n, hid, hcomplete, htold⟩ := WireOrder.told_of_ofJson hw
  obtain ⟨hbroker, halgo, hinstrument, -, hside, hquantity⟩ := openOrder_eq_ok hopen
  refine ⟨fs, rfl, ⟨n, ?_, hbroker.trans hid⟩, ?_, ⟨w.quantity, htold.quantity, ?_⟩,
    w.symbol, sole_of_holds_text htold.symbol, hreturns.wireSymbol_of_instrument hinstrument⟩
  · rw [← DocumentShape.id_of]
    exact sole_of_holds_number hcomplete.id
  · rw [halgo, Bool.eq_iff_iff, htold.isAlgo, DocumentShape.of_eq_algo_iff]
  · have hsole := sole_of_holds_text htold.side
    rw [hquantity]
    rcases direction_ofWire_eq_ok hside with ⟨hbuy, hdirection⟩ | ⟨hsell, hdirection⟩
    · rw [hbuy] at hsole
      rw [hdirection]
      exact Or.inl ⟨hsole, rfl⟩
    · rw [hsell] at hsole
      rw [hdirection]
      exact Or.inr ⟨hsole, rfl⟩

/-- What is shown has no fault. -/
theorem not_faulty_of_shown {o : OpenOrder} (h : shown l j = .ok o) : ¬Faulty l j := by
  obtain ⟨fs, w, rfl, hw, hopen⟩ := object_of_shown h
  obtain ⟨n, hid, hcomplete, htold⟩ := WireOrder.told_of_ofJson hw
  obtain ⟨-, -, hinstrument, -, hside, -⟩ := openOrder_eq_ok hopen
  rintro (⟨halgo, hregular⟩ | hmissing | ⟨hsole, hbuy, hsell⟩ | ⟨hsole, hunknown⟩)
  · simp [WireOrder.ofJson, halgo, hregular] at hw
  · exact hmissing n hcomplete
  · obtain rfl := Json.string.inj (hsole.unique (sole_of_holds_text htold.side))
    exact (direction_ofWire_eq_ok hside).elim (fun h => hbuy h.1) fun h => hsell h.1
  · obtain rfl := Json.string.inj (hsole.unique (sole_of_holds_text htold.symbol))
    obtain ⟨s, hknown, -⟩ := Listing.known_of_instrument hinstrument
    cases hknown.symm.trans hunknown

/-- **What has no fault is shown.** -/
theorem shown_of_not_faulty (h : ¬Faulty l j) : ∃ o, shown l j = .ok o := by
  cases j with
  | object fs =>
    obtain ⟨n, hcomplete⟩ : ∃ n, (DocumentShape.of fs).Complete fs n :=
      not_forall_not.mp fun hnone => h (.incomplete hnone)
    obtain ⟨w, hw, -⟩ := WireOrder.ofJson_iff.mpr hcomplete
    obtain ⟨-, -, -, htold⟩ := WireOrder.told_of_ofJson hw
    obtain ⟨direction, hside⟩ : ∃ d, Direction.ofWire w.side = .ok d := by
      by_contra hnone
      refine h (.sideless (sole_of_holds_text htold.side) ?_ ?_)
      · intro hbuy
        exact hnone ⟨.buy, by rw [hbuy]; rfl⟩
      · intro hsell
        exact hnone ⟨.sell, by rw [hsell]; rfl⟩
    obtain ⟨instrument, hinstrument⟩ : ∃ i, l.instrument w.symbol = .ok i := by
      cases hknown : l.entry? w.symbol with
      | none => exact absurd (.unlisted (sole_of_holds_text htold.symbol) hknown) h
      | some s => exact ⟨_, Listing.instrument_of_known hknown⟩
    have hopen : (w.openOrder l).isOk = true := by
      rw [WireOrder.openOrder, hside, hinstrument]
      rfl
    cases hout : w.openOrder l with
    | error e =>
      rw [hout] at hopen
      cases hopen
    | ok o =>
      refine ⟨o, ?_⟩
      rw [shown, hw]
      exact hout
  | _ => exact absurd (.nameless rfl rfl) h

/-! ## 2. Lists of documents -/

/-- What the host sees of a list of documents: a failure if one of them cannot be shown, and else
an order for each. -/
structure Reported (l : Listing) (js : List Json) (out : Outcome (List OpenOrder)) : Prop where
  fails : (∃ e, out = .error e) ↔ ∃ j ∈ js, Faulty l j
  shows : ∀ os, out = .ok os → List.Forall₂ (fun j o => ∃ fs, j = .object fs ∧ Shows l fs o) js os

/-- A list without faults is shown. -/
theorem openOrdersOf_of_not_faulty (h : ∀ j ∈ js, ¬Faulty l j) : ∃ os, openOrdersOf l js = .ok os := by
  suffices hall : ∃ os, List.Forall₂ (fun j o => shown l j = .ok o) js os from
    hall.imp fun os => openOrdersOf_eq_ok_iff.mpr
  induction js with
  | nil => exact ⟨[], .nil⟩
  | cons j js ih =>
    obtain ⟨hfirst, hrest⟩ := List.forall_mem_cons.mp h
    obtain ⟨o, ho⟩ := shown_of_not_faulty hfirst
    obtain ⟨os, hos⟩ := ih hrest
    exact ⟨o :: os, .cons ho hos⟩

/-- What was shown had no fault in it. -/
theorem not_faulty_of_openOrdersOf {os : List OpenOrder} (h : openOrdersOf l js = .ok os) :
    ∀ j ∈ js, ¬Faulty l j := by
  replace h := openOrdersOf_eq_ok_iff.mp h
  induction h with
  | nil => exact List.forall_mem_nil _
  | cons hfirst hothers ih => exact List.forall_mem_cons.mpr ⟨not_faulty_of_shown hfirst, ih⟩

/-- **A list is shown completely or not at all.** -/
theorem reported_openOrdersOf (hreturns : l.Returns) (js : List Json) :
    Reported l js (openOrdersOf l js) where
  fails := by
    constructor
    · rintro ⟨e, he⟩
      by_contra hnone
      obtain ⟨os, hos⟩ := openOrdersOf_of_not_faulty fun j hj hfault => hnone ⟨j, hj, hfault⟩
      cases he.symm.trans hos
    · rintro ⟨j, hj, hfault⟩
      cases hout : openOrdersOf l js with
      | error e => exact ⟨e, rfl⟩
      | ok os => exact absurd hfault (not_faulty_of_openOrdersOf hout j hj)
  shows os hos := (openOrdersOf_eq_ok_iff.mp hos).imp fun j o => shows_of_shown hreturns

/-! ## 3. Both requests -/

/-- The exchange answered with this value. -/
def Gives {α : Type} (decode : Json → Decoded α) (x : α) (o : Outcome HttpResponse) : Prop :=
  ∃ a, o = .ok a ∧ a.isSuccess = true ∧ Json.decodeText decode a.body = .ok x

/-- Nobody cancels the desk, numbers stay within their ranges, and the exchange answers with this
list at the address of open orders, and with this document at the address of those that are kept
apart. -/
def answering (s : Surface) (regular : List Json) (apart : Json) : Watch DeskState Unit where
  meets _ t := t.cancelled = false ∧ t.gate.fits t.now = true ∧ t.nonce.inRange t.clock = true
  answers q o := (q.path = s.openOrdersPath → Gives documents regular o) ∧
    (s.openAlgoOrdersPath? = some q.path → Gives (decodeUntyped 0) apart o)
  allows _ _ := True
  changed _ _ _ := ()
  heard _ _ _ := ()
  halfway _ := False
  passed _ _ := ()
  sends _ q := q.method = "GET" ∧
    (q.path = s.openOrdersPath ∨ s.openAlgoOrdersPath? = some q.path)

variable {α : Type} {c : Client} {surface : Surface} {regular : List Json} {apart : Json}
  {path : String} {decode : Json → Decoded α} {x : α}

/-- **A request that is answered with a value ends with it.** -/
theorem upholds_getSigned (hsigner : c.signer.isSome = true) (hfits : c.retry.fits = true)
    (hpath : path = surface.openOrdersPath ∨ surface.openAlgoOrdersPath? = some path)
    (hgives : ∀ q o, q.path = path → (answering surface regular apart).answers q o →
      Gives decode x o) (k : Unit) :
    (getSigned c.toRest path decode).Upholds (answering surface regular apart)
      (fun _ out => out = .ok x) k := by
  let call : Rest.Call := ⟨"GET", path, [], .signed⟩
  have hcalm : Rest.Calm (answering surface regular apart) :=
    ⟨id, fun _ _ => trivial, fun _ _ _ => rfl, fun _ _ => rfl⟩
  have hsends : ∀ {k stamp q}, call.prepared c.toRest stamp = .ok q →
      (answering surface regular apart).sends k q := by
    intro k stamp q hq
    obtain ⟨hmethod, hto, -⟩ := Rest.sends_of_prepared hq
    exact ⟨hmethod, by rw [hto]; exact hpath⟩
  have hanswered : ∀ {stamp q o}, call.prepared c.toRest stamp = .ok q →
      (answering surface regular apart).answers q o → Gives decode x o := by
    intro stamp q o hq ho
    exact hgives q o (Rest.sends_of_prepared hq).path ho
  have hexecute : (call.deed c.toRest).Upholds (answering surface regular apart)
      (fun _ o => Gives decode x o) k :=
    hcalm.upholds_execute (Or.inr hsigner) hfits hsends hanswered k
  refine Act.Upholds.andThen (hexecute.mono ?_)
  rintro k _ ⟨a, rfl, hsuccess, hread⟩
  exact HttpResponse.decode_eq_ok_iff.mpr ⟨hsuccess, hread⟩

/-- **What both requests bring is shown**, those that are kept apart after the others. -/
theorem upholds_openOrders (hsigner : c.signer.isSome = true) (hfits : c.retry.fits = true)
    (regular : List Json) (apart : Json) (k : Unit) :
    c.openOrders.Upholds (answering c.surface regular apart)
      (fun _ out => out = openOrdersOf c.listing (regular ++
        if c.surface.openAlgoOrdersPath?.isSome then orderList apart else [])) k := by
  refine Act.Upholds.andThen ((upholds_getSigned hsigner hfits (Or.inl rfl)
    (fun q o hq ho => ho.1 hq) k).mono ?_)
  rintro k _ rfl
  cases hpath : c.surface.openAlgoOrdersPath? with
  | none =>
    show openOrdersOf c.listing regular = _
    rw [if_neg (by simp), List.append_nil]
  | some path =>
    refine Act.Upholds.andThen ((upholds_getSigned hsigner hfits (Or.inr hpath)
      (fun q o hq ho => ho.2 (hpath.trans (congrArg some hq.symm))) k).mono ?_)
    rintro k _ rfl
    rfl

/-- **Open orders are reported completely and with the right sign**, on every surface, whatever it
lists and whatever the documents are: the host sees one order for each document of both lists, or
the call fails, and that just if a document cannot be shown.  The orders that are kept apart come as
a list, or as one under a name. -/
theorem open_orders_reported (r : Rest) (surface : Surface) (symbols : List ListedSymbol)
    (hsigner : r.signer.isSome = true) (hfits : r.retry.fits = true) (regular algo : List Json)
    (apart : Json) (hapart : apart = .array algo ∨
      ∃ fs, apart = .object fs ∧ fs.lookup "orders" = some (.array algo)) :
    let listing := Listing.ofSymbols surface symbols
    let js := regular ++ if surface.openAlgoOrdersPath?.isSome then algo else []
    Reported listing js (openOrdersOf listing js) ∧
      ∀ k, (openOrders ⟨r, listing⟩).Upholds (answering surface regular apart)
        (fun _ out => out = openOrdersOf listing js) k := by
  intro listing js
  have hsurface : (⟨r, listing⟩ : Client).surface = surface :=
    Listing.surface_ofSymbols surface symbols
  have hlist : orderList apart = algo := by
    rcases hapart with rfl | ⟨fs, rfl, hlookup⟩
    · rfl
    · simp only [orderList, Json.get?, hlookup]
  refine ⟨reported_openOrdersOf (Listing.returns_ofSymbols surface symbols) _, fun k => ?_⟩
  have hupholds := upholds_openOrders (c := ⟨r, listing⟩) hsigner hfits regular apart k
  rw [hsurface, hlist] at hupholds
  exact hupholds

/-- An order to buy three, as the exchange lists it. -/
def limitDocument : Json :=
  .object [("orderId", .ofNat 42), ("symbol", .string "ETHUSDT"), ("price", .string "95"),
    ("origQty", .string "3"), ("status", .string "NEW"), ("type", .string "LIMIT"),
    ("side", .string "BUY")]

/-- What the host sees of it. -/
def limitSeen : OpenOrder :=
  ⟨"42", false, ⟨"ETHUSDT", .cryptoFuture, "binance"⟩, .buy, (Decimal.ofInt? 3).getD .zero, .zero,
    .limit ((Decimal.ofInt? 95).getD .zero) false, "NEW", .ofMillis 0⟩

theorem open_orders_reported_contracts :
    etherContractsClient.signer.isSome = true ∧ etherContractsClient.retry.fits = true ∧
      ∀ k, etherContractsClient.openOrders.Upholds
        (answering .usdtFutures [limitDocument]
          (.object [("orders", .array [apartDocument "STOP_MARKET"])]))
        (fun _ out => out = .ok [limitSeen, apartSeen stopAtNinety]) k := by
  have hlist : openOrdersOf etherContractsClient.listing
      [limitDocument, apartDocument "STOP_MARKET"] = .ok [limitSeen, apartSeen stopAtNinety] := by
    decide +kernel
  refine ⟨rfl, by decide, fun k => ?_⟩
  rw [← hlist]
  exact (open_orders_reported etherContractsClient.toRest .usdtFutures etherContractsListed rfl
    (by decide) [limitDocument] [apartDocument "STOP_MARKET"] _ (Or.inr ⟨_, rfl, rfl⟩)).2 k

end Client
end OrderDesk
