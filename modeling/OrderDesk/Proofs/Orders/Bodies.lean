import OrderDesk.Proofs.Orders.Kinds

/-!
# What a request says of an order

A request is a list of names and texts, and its branches add to it in different combinations.  Two
things are shown of every request that can be written down, on every surface and for amounts of any
size.

* It says what there is to say (`Says`): no name stands in it twice, every amount is in plain
  notation and reads back to what it is worth, and a stop is under one of its two names, never under
  both.
* It says it of one order only (`request_determines_order`): whatever else could have been written
  down as the same request has the same symbol, side, quantity, kind and prices.

Amounts are the same here if they are worth the same: `1.50` and `1.5` are sent as one text.  The
duration of an order is only determined where it is sent, and where it is not taken up by something
else: on futures it also says that a limit order must not take.  That is what tells such an order
from one that may, since both are sent with the same type.
-/

namespace OrderDesk

/-! ## 1. Amounts as texts -/

/-- A text in plain notation that is worth this amount. -/
structure Decimal.WrittenAs (d : Decimal) (text : String) : Prop where
  plain : Decimal.PlainNotation text
  read : ∃ said, Decimal.ofText? text = some said ∧ said.value = d.value

/-- **Amounts are sent in plain notation and read back to what they are worth.** -/
theorem Decimal.writtenAs_amountText (d : Decimal) : d.WrittenAs (OrderRequest.amountText d) where
  plain := plainNotation_toText d.normalize
  read := ⟨_, ofText?_toText (isPlain_normalize d), value_normalize d⟩

/-- A text is worth one amount. -/
theorem Decimal.WrittenAs.value_eq {d d' : Decimal} {text : String} (h : d.WrittenAs text)
    (h' : d'.WrittenAs text) : d.value = d'.value := by
  obtain ⟨said, hsaid, hvalue⟩ := h.read
  obtain ⟨said', hsaid', hvalue'⟩ := h'.read
  cases hsaid.symm.trans hsaid'
  exact hvalue.symm.trans hvalue'

/-- A text for an amount, and none where there is no amount. -/
def Decimal.Written : (amount : Option Decimal) → (sent : Option String) → Prop
  | some d, some text => d.WrittenAs text
  | none, none => True
  | some _, none | none, some _ => False

theorem Decimal.written_map_amountText (amount : Option Decimal) :
    Written amount (amount.map OrderRequest.amountText) := by
  cases amount with
  | none => trivial
  | some d => exact d.writtenAs_amountText

/-- A text that is worth an amount belongs to no other, nor to none. -/
theorem Decimal.Written.exists_eq {amount : Option Decimal} {d : Decimal} {sent : Option String}
    (h : Written amount sent) (h' : Written (some d) sent) :
    ∃ d', amount = some d' ∧ d'.value = d.value := by
  cases sent with
  | none => exact h'.elim
  | some text =>
    cases amount with
    | none => exact h.elim
    | some d' => exact ⟨d', rfl, WrittenAs.value_eq h h'⟩

/-! ## 2. Durations and kinds -/

theorem TimeInForce.wireName_injective {t t' : TimeInForce} (h : t.wireName = t'.wireName) :
    t = t' := by
  cases t <;> cases t' <;> first | rfl | exact absurd h (by decide)

/-- No order is said to stay as long as one that must not take. -/
theorem TimeInForce.wireName_ne (t : TimeInForce) : t.wireName ≠ "GTX" := by
  cases t <;> decide

/-- How long an order is said to stay; on futures this may say instead that it must not take. -/
def Order.duration? (s : Surface) (o : Order) : Option String :=
  match o.kind with
  | .limit _ true => if s.isFutures then some "GTX" else none
  | .limit _ false | .stopLimit _ _ => some o.timeInForce.wireName
  | .market | .stopMarket _ => none

/-- A limit order that must not take. -/
def OrderKind.isPostOnly : OrderKind → Bool
  | .limit _ postOnly => postOnly
  | .market | .stopLimit _ _ | .stopMarket _ => false

/-- Two kinds that are the same as a third are the same. -/
theorem OrderKind.Matches.euclid {k a b : OrderKind} (ha : k.Matches a) (hb : k.Matches b) :
    a.Matches b := by
  cases k <;> cases a <;> cases b <;> simp_all [Matches, Decimal.sameValue_iff]

/-- On futures the duration says just of these orders that they must not take. -/
theorem Order.isPostOnly_iff {s : Surface} {o : Order} (hs : s.isFutures = true) :
    o.kind.isPostOnly = true ↔ o.duration? s = some "GTX" := by
  unfold OrderKind.isPostOnly Order.duration?
  cases o.kind with
  | market | stopMarket _ => simp
  | stopLimit _ _ => simp [o.timeInForce.wireName_ne]
  | limit _ postOnly => cases postOnly <;> simp [hs, o.timeInForce.wireName_ne]

/-- **The duration tells what the listing does not say of a kind.** -/
theorem OrderKind.matches_of_listed {s : Surface} {o o' : Order}
    (hkind : (o.kind.listed s).Matches (o'.kind.listed s))
    (hduration : o.duration? s = o'.duration? s) : o.kind.Matches o'.kind := by
  cases hs : s.isFutures with
  | false => rwa [listed_eq (Or.inl hs), listed_eq (Or.inl hs)] at hkind
  | true =>
    have hpost : o.kind.isPostOnly = o'.kind.isPostOnly := by
      rw [Bool.eq_iff_iff, Order.isPostOnly_iff hs, Order.isPostOnly_iff hs, hduration]
    cases hk : o.kind <;> cases hk' : o'.kind <;> simp_all [listed, Matches, isPostOnly]

theorem OrderKind.Matches.isPostOnly_eq {k k' : OrderKind} (h : k.Matches k') :
    k.isPostOnly = k'.isPostOnly := by
  cases k <;> cases k' <;> simp_all [Matches, isPostOnly]

/-- A duration that was sent is the order's own, unless it says that the order must not take. -/
theorem Order.duration?_eq {s : Surface} {o : Order} (hsent : (o.duration? s).isSome = true)
    (hpost : o.kind.isPostOnly = false) : o.duration? s = some o.timeInForce.wireName := by
  unfold Order.duration? at hsent ⊢
  cases hk : o.kind with
  | market | stopMarket _ => simp [hk] at hsent
  | stopLimit _ _ => rfl
  | limit _ postOnly =>
    rw [hk] at hpost
    obtain rfl : postOnly = false := hpost
    rfl

namespace OrderRequest

variable {s : Surface} {o o' : Order} {symbol symbol' : String} {r : OrderRequest}
  {reference reference' : Option Decimal} {own : Parameters}

/-! ## 3. What a request says -/

/-- The parameters of a kind, one case for each way to write it down. -/
inductive Shape (s : Surface) (o : Order) : Parameters → Prop
  | market : o.kind = .market → Shape s o [("type", "MARKET")]
  | maker {price : Decimal} : o.kind = .limit price true → s.isFutures = false →
      Shape s o [("type", "LIMIT_MAKER"), ("price", amountText price)]
  | limit {price : Decimal} {postOnly : Bool} : o.kind = .limit price postOnly →
      (postOnly = true → s.isFutures = true) →
      Shape s o [("type", "LIMIT"),
        ("timeInForce", if postOnly then "GTX" else o.timeInForce.wireName),
        ("price", amountText price)]
  | stopLimit {stop price : Decimal} (word : String) : o.kind = .stopLimit stop price →
      Shape s o (("type", word) :: ("timeInForce", o.timeInForce.wireName) ::
        ("price", amountText price) :: stopParameters s stop)
  | stopMarket {stop : Decimal} (word : String) : o.kind = .stopMarket stop →
      Shape s o (("type", word) :: stopParameters s stop)

/-- **There is no other way.** -/
theorem shape_kindParameters (h : kindParameters s o reference = .ok own) : Shape s o own := by
  unfold kindParameters at h
  cases hkind : o.kind with
  | market =>
    rw [hkind] at h
    cases h
    exact .market hkind
  | limit price postOnly =>
    rw [hkind] at h
    dsimp only at h
    split at h
    · rename_i hmaker
      simp only [Bool.and_eq_true, Bool.not_eq_true'] at hmaker
      obtain ⟨rfl, hs⟩ := hmaker
      cases h
      exact .maker hkind hs
    · rename_i hplain
      cases h
      refine .limit hkind fun hpost => ?_
      rw [hpost, Bool.true_and, Bool.not_eq_true, Bool.not_eq_false'] at hplain
      exact hplain
  | stopLimit stop price =>
    rw [hkind] at h
    dsimp only at h
    split at h
    · cases h
    · cases husable : usableReference reference with
      | error e =>
        rw [husable] at h
        cases h
      | ok anchor =>
        rw [husable] at h
        cases h
        exact .stopLimit _ hkind
  | stopMarket stop =>
    rw [hkind] at h
    dsimp only at h
    split at h
    · cases husable : usableReference reference with
      | error e =>
        rw [husable] at h
        cases h
      | ok anchor =>
        rw [husable] at h
        cases h
        exact .stopMarket _ hkind
    · cases h

theorem Shape.duration (h : Shape s o own) : own.lookup "timeInForce" = o.duration? s := by
  unfold Order.duration?
  cases h with
  | market hkind => rw [hkind]; rfl
  | maker hkind hs => rw [hkind]; simp [hs, List.lookup_cons]
  | @limit _ postOnly hkind hs =>
    rw [hkind]
    cases postOnly with
    | false => rfl
    | true => simp [hs rfl, List.lookup_cons]
  | stopLimit word hkind => rw [hkind]; rfl
  | stopMarket word hkind =>
    rw [hkind]
    unfold stopParameters
    split <;> rfl

/-- The names that come with a stop. -/
theorem keys_stopParameters (s : Surface) (stop : Decimal) :
    ((stopParameters s stop).map Prod.fst).Sublist ["algoType", "triggerPrice", "stopPrice"] := by
  unfold stopParameters
  split
  · show ["algoType", "triggerPrice"].Sublist _
    decide
  · show ["stopPrice"].Sublist _
    decide

/-- The names that come with a kind. -/
theorem Shape.keys (h : Shape s o own) : (own.map Prod.fst).Sublist
    ["type", "timeInForce", "price", "algoType", "triggerPrice", "stopPrice"] := by
  cases h with
  | market _ =>
    show ["type"].Sublist _
    decide
  | maker _ _ =>
    show ["type", "price"].Sublist _
    decide
  | limit _ _ =>
    show ["type", "timeInForce", "price"].Sublist _
    decide
  | stopLimit word _ => exact (((keys_stopParameters s _).cons_cons _).cons_cons _).cons_cons _
  | stopMarket word _ => exact (((keys_stopParameters s _).cons _).cons _).cons_cons _

theorem keys_marginParameters (s : Surface) :
    ((marginParameters s).map Prod.fst).Sublist ["isIsolated", "sideEffectType"] := by
  unfold marginParameters
  split
  · exact List.Sublist.refl _
  · exact List.nil_sublist _

/-- A stop goes by one of two names. -/
theorem Shape.stop (h : Shape s o own) :
    own.lookup "triggerPrice" =
        (if o.kind.isAlgoOn s then o.kind.stop?.map amountText else none) ∧
      own.lookup "stopPrice" =
        if o.kind.isAlgoOn s then none else o.kind.stop?.map amountText := by
  have hstop : ∀ (stop : Decimal),
      (stopParameters s stop).lookup "triggerPrice" =
          (if s.algoOrderPath?.isSome then some (amountText stop) else none) ∧
        (stopParameters s stop).lookup "stopPrice" =
          if s.algoOrderPath?.isSome then none else some (amountText stop) := by
    intro stop
    unfold stopParameters
    cases s.algoOrderPath? <;> exact ⟨rfl, rfl⟩
  unfold OrderKind.isAlgoOn
  cases h with
  | market hkind | maker hkind _ | limit hkind _ =>
    rw [hkind]
    simp [OrderKind.stop?, List.lookup_cons]
  | @stopLimit stop _ word hkind =>
    rw [hkind]
    simpa [OrderKind.stop?, List.lookup_cons] using hstop stop
  | @stopMarket stop word hkind =>
    rw [hkind]
    simpa [OrderKind.stop?, List.lookup_cons] using hstop stop

/-- What a request says of an order.

* `names`: no name stands in it twice;
* `symbol`, `side`, `quantity`, `price`: what is traded, and at which price;
* `trigger`, `stop`: the stop goes by the one name where stop orders are kept apart, and by the
  other elsewhere;
* `duration`: how long the order stays. -/
structure Says (r : OrderRequest) (s : Surface) (o : Order) (symbol : String) : Prop where
  names : (r.parameters.map Prod.fst).Nodup
  symbol : r.get? "symbol" = some symbol
  side : r.get? "side" = some o.direction.wireName
  quantity : Decimal.Written (some o.quantity.abs) (r.get? "quantity")
  price : Decimal.Written o.kind.price? (r.get? "price")
  trigger : Decimal.Written (if r.isAlgo then o.kind.stop? else none) (r.get? "triggerPrice")
  stop : Decimal.Written (if r.isAlgo then none else o.kind.stop?) (r.get? "stopPrice")
  duration : r.get? "timeInForce" = o.duration? s

/-- **Every request says what there is to say.** -/
theorem says_of_build (h : build s o symbol reference = .ok r) : r.Says s o symbol := by
  obtain ⟨own, hown, hget⟩ := get?_build h
  have hshape := shape_kindParameters hown
  obtain ⟨_, hspells, -⟩ := spells_kindParameters hown
  have hr : r = ⟨pathOf s o.kind, ("symbol", symbol) :: ("quantity", amountText o.quantity.abs) ::
      ("side", o.direction.wireName) :: (own ++ marginParameters s), o.kind.isAlgoOn s⟩ := by
    rw [build, hown] at h
    exact (Except.ok.inj h).symm
  have halgo : r.isAlgo = o.kind.isAlgoOn s := by rw [hr]
  refine {
    names := ?names
    symbol := by rw [hr]; rfl
    side := by rw [hr]; rfl
    quantity := ?quantity
    price := ?price
    trigger := ?trigger
    stop := ?stop
    duration := by rw [hget _ (by decide), hshape.duration] }
  case names =>
    have hkeys : (r.parameters.map Prod.fst).Sublist (["symbol", "quantity", "side"] ++
        (["type", "timeInForce", "price", "algoType", "triggerPrice", "stopPrice"] ++
          ["isIsolated", "sideEffectType"])) := by
      rw [hr, List.map_cons, List.map_cons, List.map_cons, List.map_append]
      exact (((hshape.keys.append (keys_marginParameters s)).cons_cons _).cons_cons _).cons_cons _
    exact hkeys.nodup (by decide)
  case quantity =>
    rw [hr]
    exact Decimal.writtenAs_amountText _
  case price =>
    rw [hget _ (by decide), hspells.price]
    exact Decimal.written_map_amountText _
  case trigger =>
    rw [hget _ (by decide), hshape.stop.1, halgo]
    split
    · exact Decimal.written_map_amountText _
    · trivial
  case stop =>
    rw [hget _ (by decide), hshape.stop.2, halgo]
    split
    · trivial
    · exact Decimal.written_map_amountText _

/-- The stop, under whichever name. -/
theorem Says.anyStop (h : r.Says s o symbol) : Decimal.Written o.kind.stop?
    (if r.isAlgo then r.get? "triggerPrice" else r.get? "stopPrice") := by
  have htrigger := h.trigger
  have hstop := h.stop
  cases halgo : r.isAlgo with
  | true =>
    rw [halgo] at htrigger
    exact htrigger
  | false =>
    rw [halgo] at hstop
    exact hstop

/-! ## 4. Of which order it says this -/

/-- **Two orders with one request are listed as the same kind.** -/
theorem matches_of_build (h : build s o symbol reference = .ok r)
    (h' : build s o' symbol' reference' = .ok r) :
    (o.kind.listed s).Matches (o'.kind.listed s) := by
  have hsaid := says_of_build h
  have hsaid' := says_of_build h'
  obtain ⟨own, hown, hget⟩ := get?_build h
  obtain ⟨own', hown', hget'⟩ := get?_build h'
  obtain ⟨kind, hspells, hmatches⟩ := spells_kindParameters hown
  obtain ⟨kind', hspells', hmatches'⟩ := spells_kindParameters hown'
  obtain rfl : kind = kind' := Option.some.inj (by
    rw [← hspells.kind, ← hspells'.kind, ← hget _ (by decide), ← hget' _ (by decide)])
  -- What repeats the amounts of the first order repeats those of the second.
  have hsame : ∀ {amount amount' : Option Decimal} {sent : Option String},
      Decimal.Written amount sent → Decimal.Written amount' sent →
        ∀ p, amount' = some p → (amount.getD .zero).sameValue p = true := by
    rintro amount _ sent hamount hamount' p rfl
    obtain ⟨d, rfl, hvalue⟩ := hamount.exists_eq hamount'
    exact Decimal.sameValue_iff.mpr hvalue
  exact (hmatches _ _ (hsame hsaid.price hsaid.price) (hsame hsaid.anyStop hsaid.anyStop)).euclid
    (hmatches' _ _ (hsame hsaid.price hsaid'.price) (hsame hsaid.anyStop hsaid'.anyStop))

/-- **A request determines its order.**  It says of the order what there is to say, and of every
order that is written down as the same request it says the same: the symbol, the side, what the
quantity and the prices are worth, the kind, whether it must not take, and the duration where one is
sent that does not say just this. -/
theorem request_determines_order (h : build s o symbol reference = .ok r) :
    r.Says s o symbol ∧
    ∀ o' symbol' reference', build s o' symbol' reference' = .ok r →
      symbol = symbol' ∧ o.direction = o'.direction ∧
        o.quantity.abs.value = o'.quantity.abs.value ∧ o.kind.Matches o'.kind ∧
        ((r.get? "timeInForce").isSome = true → o.kind.isPostOnly = false →
          o.timeInForce = o'.timeInForce) := by
  have hsaid := says_of_build h
  refine ⟨hsaid, fun o' symbol' reference' h' => ?_⟩
  have hsaid' := says_of_build h'
  have hduration : o.duration? s = o'.duration? s := hsaid.duration.symm.trans hsaid'.duration
  have hkind := OrderKind.matches_of_listed (matches_of_build h h') hduration
  refine ⟨?symbol, ?side, ?quantity, hkind, ?duration⟩
  case symbol => exact Option.some.inj (hsaid.symbol.symm.trans hsaid'.symbol)
  case side =>
    have hside := Option.some.inj (hsaid.side.symm.trans hsaid'.side)
    revert hside
    cases o.direction <;> cases o'.direction <;> decide
  case quantity =>
    obtain ⟨d, hd, hvalue⟩ := hsaid.quantity.exists_eq hsaid'.quantity
    rw [Option.some.inj hd, hvalue]
  case duration =>
    intro hsent hpost
    rw [hsaid.duration] at hsent
    have hours := Order.duration?_eq hsent hpost
    have htheirs := Order.duration?_eq (hduration ▸ hsent) (hkind.isPostOnly_eq ▸ hpost)
    rw [hours, htheirs, Option.some.injEq] at hduration
    exact TimeInForce.wireName_injective hduration

/-- Ninety, written with two places. -/
def ninetyFlat : Decimal := (Decimal.ofParts? 9000 2).getD .zero

theorem request_determines_order_stop :
    build .usdtFutures (etherContracts (.stopLimit ninety ninety)) "ETHUSDT" (some hundred) =
        .ok stopRequest ∧
      build .usdtFutures (etherContracts (.stopLimit ninetyFlat ninety)) "ETHUSDT" (some hundred) =
        .ok stopRequest ∧
      stopRequest.Says .usdtFutures (etherContracts (.stopLimit ninety ninety)) "ETHUSDT" ∧
      (OrderKind.stopLimit ninety ninety).Matches (.stopLimit ninetyFlat ninety) :=
  have h : build .usdtFutures (etherContracts (.stopLimit ninety ninety)) "ETHUSDT"
      (some hundred) = .ok stopRequest := by decide +kernel
  have h' : build .usdtFutures (etherContracts (.stopLimit ninetyFlat ninety)) "ETHUSDT"
      (some hundred) = .ok stopRequest := by decide +kernel
  have hdetermined := request_determines_order h
  ⟨h, h', hdetermined.1, (hdetermined.2 _ _ _ h').2.2.2.1⟩

end OrderRequest
end OrderDesk
