import OrderDesk.Order

/-!
# Requests for orders

Which address an order is sent to and with which parameters.

Stop orders come in two families, by the side of the reference price on which the stop lies: a
stop loss sells at or below it or buys strictly above it, everything else takes profit.  The
family is part of the type on the wire, so a stop order can only be written down where a
reference price is known.  Contracts on the dollar side keep stop orders apart: they have an
address of their own and call the stop a trigger.
-/

namespace OrderDesk

/-! ## 1. Stop orders -/

/-- The side of the reference price on which a stop lies. -/
inductive StopFamily where
  | stopLoss
  | takeProfit
deriving DecidableEq, Repr

namespace StopFamily

def name : StopFamily → String
  | stopLoss => "StopLoss"
  | takeProfit => "TakeProfit"

/-- The family of a stop. -/
def classify (direction : Direction) (stop reference : Decimal) : StopFamily :=
  let isLoss := match direction with
    | .sell => stop.le reference
    | .buy => reference.lt stop
  if isLoss then stopLoss else takeProfit

/-- The type of a stop order that turns into a limit order. -/
def limitType (s : Surface) : StopFamily → String
  | stopLoss => if s.isFutures then "STOP" else "STOP_LOSS_LIMIT"
  | takeProfit => if s.isFutures then "TAKE_PROFIT" else "TAKE_PROFIT_LIMIT"

/-- The type of a stop order that turns into a market order. -/
def marketType : StopFamily → String
  | stopLoss => "STOP_MARKET"
  | takeProfit => "TAKE_PROFIT_MARKET"

end StopFamily

namespace OrderKind

/-- Whether an order is placed only with a reference price. -/
def needsReference (k : OrderKind) : Bool := k.stop?.isSome

/-- Whether orders of this kind are kept apart on a surface. -/
def isAlgoOn (k : OrderKind) (s : Surface) : Bool := s.algoOrderPath?.isSome && k.stop?.isSome

end OrderKind

/-! ## 2. Parameters -/

/-- Names and values, in the order in which they are sent. -/
abbrev Parameters := List (String × String)

/-- An order as it is sent. -/
structure OrderRequest where
  path : String
  parameters : Parameters
  isAlgo : Bool
deriving DecidableEq, Repr

namespace OrderRequest

def get? (r : OrderRequest) (name : String) : Option String := r.parameters.lookup name

/-- An amount as it is sent, without trailing zeros. -/
def amountText (d : Decimal) : String := d.normalize.toText

/-- The reference price for a stop order: it has to be known and must not be zero. -/
def usableReference (reference : Option Decimal) : Outcome Decimal :=
  match reference.filter fun r => !r.isZero with
  | some r => .ok r
  | none => .error (.parameters "Stop orders need a non-zero reference price")

/-- What says that a stop is a trigger. -/
def stopParameters (s : Surface) (stop : Decimal) : Parameters :=
  match s.algoOrderPath? with
  | some _ => [("algoType", "CONDITIONAL"), ("triggerPrice", amountText stop)]
  | none => [("stopPrice", amountText stop)]

/-- The parameters that the kind of an order adds. -/
def kindParameters (s : Surface) (o : Order) (reference : Option Decimal) : Outcome Parameters :=
  match o.kind with
  | .market => .ok [("type", "MARKET")]
  | .limit price postOnly =>
    if postOnly && !s.isFutures then .ok [("type", "LIMIT_MAKER"), ("price", amountText price)]
    else
      .ok [("type", "LIMIT"), ("timeInForce", if postOnly then "GTX" else o.timeInForce.wireName),
        ("price", amountText price)]
  | .stopLimit stop price =>
    if s = .coinFutures then
      .error (.unsupportedOrder (s.label ++ " does not support stop-limit orders"))
    else
      (usableReference reference).map fun r =>
        ("type", (StopFamily.classify o.direction stop r).limitType s) ::
          ("timeInForce", o.timeInForce.wireName) :: ("price", amountText price) ::
          stopParameters s stop
  | .stopMarket stop =>
    if s.isFutures then
      (usableReference reference).map fun r =>
        ("type", (StopFamily.classify o.direction stop r).marketType) :: stopParameters s stop
    else .error (.unsupportedOrder (s.label ++ " does not support stop-market orders"))

/-- What margin orders add. -/
def marginParameters (s : Surface) : Parameters :=
  if s = .crossMargin then [("isIsolated", "FALSE"), ("sideEffectType", "MARGIN_BUY")] else []

/-- The address of an order. -/
def pathOf (s : Surface) (k : OrderKind) : String :=
  match s.algoOrderPath?, k.stop? with
  | some path, some _ => path
  | _, _ => s.orderPath

/-- An order as it is sent, under its wire symbol. -/
def build (s : Surface) (o : Order) (symbol : String) (reference : Option Decimal) :
    Outcome OrderRequest :=
  (kindParameters s o reference).map fun own =>
    { path := pathOf s o.kind
      parameters :=
        ("symbol", symbol) :: ("quantity", amountText o.quantity.abs) ::
          ("side", o.direction.wireName) :: (own ++ marginParameters s)
      isAlgo := o.kind.isAlgoOn s }

end OrderRequest
end OrderDesk
