import OrderDesk.Order.Request
import OrderDesk.Proofs.Amounts
import OrderDesk.Wire.Order

/-!
# Kinds, sent and listed

An order is sent with a type and the prices of its kind, and the exchange lists it with the same
type and prices.  Writing and reading are two functions with a case for each kind, and some types
mean one thing on futures and another elsewhere; still the kind of an order survives the way out
and back (`kind_survives_echo`), up to how its prices are written, with one exception.

The exception is a limit order on futures that must not take: it has no type of its own there, but
the type of every limit order and a duration that says so (`GTX`).  A listed order has no duration,
so what comes back is a limit order like any other (`OrderKind.listed`).
-/

namespace OrderDesk

/-! ## 1. Kinds up to the writing of prices -/

/-- An amount repeats what was sent: it is worth what the text says, and nothing if there is
none. -/
def Decimal.Repeats (d : Decimal) : (sent : Option String) → Prop
  | some text => ∃ said, Decimal.ofText? text = some said ∧ d.sameValue said = true
  | none => d.isZero = true

namespace OrderKind

/-- The price at which a limit order trades. -/
def price? : OrderKind → Option Decimal
  | limit price _ => some price
  | stopLimit _ price => some price
  | market => none
  | stopMarket _ => none

/-- Two kinds are the same but for the writing of their prices. -/
def Matches : OrderKind → OrderKind → Prop
  | market, market => True
  | limit price postOnly, limit price' postOnly' =>
    price.sameValue price' = true ∧ postOnly = postOnly'
  | stopLimit stop price, stopLimit stop' price' =>
    stop.sameValue stop' = true ∧ price.sameValue price' = true
  | stopMarket stop, stopMarket stop' => stop.sameValue stop' = true
  | _, _ => False

/-- What a listing says of a kind: on futures, not that a limit order must not take. -/
def listed (s : Surface) : OrderKind → OrderKind
  | limit price postOnly => limit price (postOnly && !s.isFutures)
  | market => market
  | stopLimit stop price => stopLimit stop price
  | stopMarket stop => stopMarket stop

/-- Nothing but limit orders on futures is listed as something else. -/
theorem listed_eq {s : Surface} {k : OrderKind}
    (h : s.isFutures = false ∨ ∀ price, k ≠ limit price true) : k.listed s = k := by
  cases k with
  | market | stopLimit | stopMarket => rfl
  | limit price postOnly =>
    rcases h with hs | hk
    · simp [listed, hs]
    · cases postOnly with
      | false => rfl
      | true => exact absurd rfl (hk price)

end OrderKind

/-! ## 2. What the parameters of a kind say -/

namespace OrderRequest

/-- An exchange's order has the type and the prices that were sent. -/
structure Echo (r : OrderRequest) (kind : String) (price stop : Decimal) : Prop where
  kind : r.get? "type" = some kind
  price : price.Repeats (r.get? "price")
  stop : stop.Repeats ((r.get? "stopPrice").or (r.get? "triggerPrice"))

/-- Parameters that spell out a type and the prices of a kind. -/
structure Spells (ps : Parameters) (kind : String) (k : OrderKind) : Prop where
  kind : ps.lookup "type" = some kind
  price : ps.lookup "price" = k.price?.map amountText
  stop : (ps.lookup "stopPrice").or (ps.lookup "triggerPrice") = k.stop?.map amountText

variable {s : Surface} {o : Order} {symbol : String} {reference : Option Decimal} {r : OrderRequest}

/-- What the parameters of a stop answer. -/
theorem lookup_stopParameters (s : Surface) (stop : Decimal) :
    (stopParameters s stop).lookup "type" = none ∧ (stopParameters s stop).lookup "price" = none ∧
      ((stopParameters s stop).lookup "stopPrice").or
        ((stopParameters s stop).lookup "triggerPrice") = some (amountText stop) := by
  unfold stopParameters
  split <;> exact ⟨rfl, rfl, rfl⟩

/-- **The parameters of a kind spell it out**, with a type that means this kind where it is
listed. -/
theorem spells_kindParameters {own : Parameters} (h : kindParameters s o reference = .ok own) :
    ∃ kind, Spells own kind o.kind ∧
      ∀ price stop, (∀ p, o.kind.price? = some p → price.sameValue p = true) →
        (∀ p, o.kind.stop? = some p → stop.sameValue p = true) →
        (OrderKind.ofWire s kind price stop).Matches (o.kind.listed s) := by
  unfold kindParameters at h
  cases hkind : o.kind with
  | market =>
    rw [hkind] at h
    cases h
    exact ⟨"MARKET", ⟨rfl, rfl, rfl⟩, fun _ _ _ _ => trivial⟩
  | limit limit postOnly =>
    rw [hkind] at h
    dsimp only at h
    split at h
    · rename_i hmaker
      cases h
      exact ⟨"LIMIT_MAKER", ⟨rfl, rfl, rfl⟩, fun _ _ hprice _ => ⟨hprice _ rfl, hmaker.symm⟩⟩
    · rename_i hplain
      cases h
      exact ⟨"LIMIT", ⟨rfl, rfl, rfl⟩,
        fun _ _ hprice _ => ⟨hprice _ rfl, (Bool.eq_false_iff.mpr hplain).symm⟩⟩
  | stopLimit stop limit =>
    rw [hkind] at h
    dsimp only at h
    split at h
    · cases h
    · cases husable : usableReference reference with
      | error e =>
        rw [husable] at h
        cases h
      | ok anchor =>
        rw [husable] at h
        cases h
        obtain ⟨-, -, hstop⟩ := lookup_stopParameters s stop
        refine ⟨_, ⟨rfl, rfl, hstop⟩, fun price stop' hprice hstop' => ?_⟩
        have hmatch : (OrderKind.stopLimit stop' price).Matches (.stopLimit stop limit) :=
          ⟨hstop' _ rfl, hprice _ rfl⟩
        cases StopFamily.classify o.direction stop anchor <;> cases s <;> exact hmatch
  | stopMarket stop =>
    rw [hkind] at h
    dsimp only at h
    split at h
    · cases husable : usableReference reference with
      | error e =>
        rw [husable] at h
        cases h
      | ok anchor =>
        rw [husable] at h
        cases h
        obtain ⟨-, hprice, hstop⟩ := lookup_stopParameters s stop
        refine ⟨_, ⟨rfl, hprice, hstop⟩, fun price stop' _ hstop' => ?_⟩
        have hmatch : (OrderKind.stopMarket stop').Matches (.stopMarket stop) := hstop' _ rfl
        cases StopFamily.classify o.direction stop anchor <;> exact hmatch
    · cases h

/-- What the parameters of the kind answer, the whole request answers. -/
theorem get?_build (h : build s o symbol reference = .ok r) :
    ∃ own, kindParameters s o reference = .ok own ∧
      ∀ name ∈ ["type", "timeInForce", "price", "stopPrice", "triggerPrice"],
        r.get? name = own.lookup name := by
  unfold build at h
  cases hown : kindParameters s o reference with
  | error e =>
    rw [hown] at h
    cases h
  | ok own =>
    rw [hown] at h
    cases h
    refine ⟨own, rfl, fun name hname => ?_⟩
    simp only [List.mem_cons, List.not_mem_nil, or_false] at hname
    have hmargin : (marginParameters s).lookup name = none := by
      unfold marginParameters
      split
      · rcases hname with rfl | rfl | rfl | rfl | rfl <;> rfl
      · rfl
    have hlookup : (own ++ marginParameters s).lookup name = own.lookup name := by
      rw [List.lookup_append, hmargin, Option.or_none]
    rw [← hlookup]
    rcases hname with rfl | rfl | rfl | rfl | rfl <;> rfl

/-! ## 3. Out and back -/

/-- A text that was sent is repeated by amounts of the same value, and by no others. -/
theorem repeats_amountText {d sent : Decimal} :
    d.Repeats (some (amountText sent)) ↔ d.sameValue sent = true := by
  have hread : Decimal.ofText? (amountText sent) = some sent.normalize :=
    Decimal.ofText?_toText (Decimal.isPlain_normalize sent)
  have hvalue : d.sameValue sent.normalize = true ↔ d.sameValue sent = true := by
    rw [Decimal.sameValue_iff, Decimal.sameValue_iff, Decimal.value_normalize]
  constructor
  · rintro ⟨said, hsaid, hsame⟩
    rw [hread] at hsaid
    cases hsaid
    exact hvalue.mp hsame
  · exact fun hsame => ⟨_, hread, hvalue.mpr hsame⟩

/-- What was sent can be repeated. -/
theorem exists_repeats (sent : Option Decimal) : ∃ d : Decimal, d.Repeats (sent.map amountText) := by
  cases sent with
  | none => exact ⟨.zero, rfl⟩
  | some d => exact ⟨d, repeats_amountText.mpr (Decimal.sameValue_iff.mpr rfl)⟩

/-- **The kind of an order survives the way out and back**: there is an answer with the type and
the prices of any request, and whatever has them is listed as an order of the kind that was
sent. -/
theorem kind_survives_echo (h : build s o symbol reference = .ok r) :
    (∃ kind price stop, r.Echo kind price stop) ∧
      ∀ kind price stop, r.Echo kind price stop →
        (OrderKind.ofWire s kind price stop).Matches (o.kind.listed s) := by
  obtain ⟨own, hown, hget⟩ := get?_build h
  obtain ⟨kind, hspells, hmatches⟩ := spells_kindParameters hown
  have hkind : r.get? "type" = some kind := by rw [hget _ (by decide), hspells.kind]
  have hprice : r.get? "price" = o.kind.price?.map amountText := by
    rw [hget _ (by decide), hspells.price]
  have hstop : (r.get? "stopPrice").or (r.get? "triggerPrice") = o.kind.stop?.map amountText := by
    rw [hget _ (by decide), hget _ (by decide), hspells.stop]
  constructor
  · obtain ⟨price, hrepeated⟩ := exists_repeats o.kind.price?
    obtain ⟨stop, hagain⟩ := exists_repeats o.kind.stop?
    exact ⟨kind, price, stop, hkind, hprice ▸ hrepeated, hstop ▸ hagain⟩
  · rintro kind' price stop ⟨hkind', hrepeated, hagain⟩
    rw [hkind] at hkind'
    cases hkind'
    rw [hprice] at hrepeated
    rw [hstop] at hagain
    refine hmatches price stop (fun p hp => ?_) fun p hp => ?_
    · rw [hp] at hrepeated
      exact repeats_amountText.mp hrepeated
    · rw [hp] at hagain
      exact repeats_amountText.mp hagain

/-- An order to sell one and a half ether contracts. -/
def etherContracts (kind : OrderKind) : Order :=
  .create 1 ⟨"ETHUSDT", .cryptoFuture, "binance"⟩ .sell ⟨false, 150, 2, by decide, by decide⟩ kind
    .epoch

/-- Ninety. -/
def ninety : Decimal := (Decimal.ofInt? 90).getD .zero

/-- A hundred, written with a place. -/
def hundred : Decimal := ⟨false, 1000, 1, by decide, by decide⟩

/-- Sell at ninety once the price has fallen from a hundred to ninety. -/
def stopRequest : OrderRequest :=
  ⟨"/fapi/v1/algoOrder", [("symbol", "ETHUSDT"), ("quantity", "1.5"), ("side", "SELL"),
    ("type", "STOP"), ("timeInForce", "GTC"), ("price", "90"), ("algoType", "CONDITIONAL"),
    ("triggerPrice", "90")], true⟩

/-- Sell at a hundred, and do not take. -/
def makerRequest : OrderRequest :=
  ⟨"/fapi/v1/order", [("symbol", "ETHUSDT"), ("quantity", "1.5"), ("side", "SELL"),
    ("type", "LIMIT"), ("timeInForce", "GTX"), ("price", "100")], false⟩

theorem kind_survives_echo_stop :
    build .usdtFutures (etherContracts (.stopLimit ninety ninety)) "ETHUSDT" (some hundred) =
        .ok stopRequest ∧
      (∃ kind price stop, stopRequest.Echo kind price stop) ∧
      ∀ kind price stop, stopRequest.Echo kind price stop →
        (OrderKind.ofWire .usdtFutures kind price stop).Matches (.stopLimit ninety ninety) :=
  have h : build .usdtFutures (etherContracts (.stopLimit ninety ninety)) "ETHUSDT"
      (some hundred) = .ok stopRequest := by decide +kernel
  ⟨h, kind_survives_echo h⟩

/-- **On futures a limit order that must not take is listed as one that may**: what repeats its
type and its price is read as a limit order like any other. -/
theorem postOnly_lost_on_futures :
    build .usdtFutures (etherContracts (.limit hundred true)) "ETHUSDT" none = .ok makerRequest ∧
      makerRequest.Echo "LIMIT" hundred .zero ∧
      ¬ (OrderKind.ofWire .usdtFutures "LIMIT" hundred .zero).Matches (.limit hundred true) := by
  refine ⟨by decide +kernel, ⟨by decide, ?_, rfl⟩, ?_⟩
  · exact repeats_amountText.mpr (Decimal.sameValue_iff.mpr rfl)
  · rintro ⟨-, hpost⟩
    cases hpost

end OrderRequest
end OrderDesk
