import OrderDesk.Client.Basic
import OrderDesk.Wire.Order

/-!
# Orders at the exchange

Placing and cancelling has three ends.  The exchange accepts, and the host is told; the exchange
turns the request itself down, and the host is told that, too; or nothing is certain, and the call
fails without a word to the host.

A stop order is placed with a reference price: the host's, or else the last price, which is then
asked for first.
-/

namespace OrderDesk.Client

/-! ## 1. What an answer to an order means -/

/-- The end of an attempt to place or cancel an order. -/
inductive Verdict where
  | accepted (body : String)
  | rejected (cause : Fault)
deriving DecidableEq, Repr

/-- The verdict of a last answer. -/
def verdict (attempts : Nat) (r : HttpResponse) : Outcome Verdict :=
  if r.isSuccess then .ok (.accepted r.body)
  else
    let cause : Fault :=
      if r.isThrottled then .throttled attempts r.body else .answer r.status r.body
    if cause.isRejection then .ok (.rejected cause) else .error cause

/-- The order that a body describes. -/
def acknowledged (body : String) : Outcome WireOrder :=
  match Json.readSettled body with
  | .ok j => WireOrder.ofJson j
  | .error place => .error (.document (Json.TextFault.malformed place).message)

/-- Sends a request about an order. -/
def submit (c : Client) (method path : String) (ps : Parameters) : Trial Verdict :=
  (c.execute method path ps .signed).andThen fun r => .ofOutcome (verdict c.retry.attempts r)

/-! ## 2. Placing -/

/-- A reference price that can be used. -/
def usable (reference : Option Decimal) : Option Decimal := reference.filter fun r => !r.isZero

/-- The reference price for an order, asked for if it is needed and the host has none. -/
def reference (c : Client) (o : Order) (symbol : String) (known : Option Decimal) :
    Trial (Option Decimal) :=
  if o.kind.needsReference then
    match usable known with
    | some r => .ok (some r)
    | none => (c.price symbol).andThen fun r => .ok (some r)
  else .ok none

def reportAccepted (o : Order) (brokerId : String) : Deed Unit :=
  Act.modify fun s =>
    (s.emit (.orderIds o.id [brokerId])).emit (.order (.ofStatus o .submitted "" s.instant))

def reportRejected (o : Order) (cause : Fault) : Deed Unit :=
  let text := "Order " ++ Text.ofNat o.id ++ " rejected: " ++ cause.message
  Act.modify fun s =>
    (s.emit (.order (.ofStatus o .invalid text s.instant))).emit (.warning "OrderRejected" text)

/-- Places an order; the id that the exchange gave to it, or nothing if it was turned down. -/
def placeOrder (c : Client) (o : Order) (known : Option Decimal) : Trial (Option String) :=
  (Act.ofOutcome (c.listing.wireSymbol o.instrument)).andThen fun symbol =>
  (c.reference o symbol known).andThen fun reference =>
  (Act.ofOutcome (OrderRequest.build c.surface o symbol reference)).andThen fun request =>
  (c.submit "POST" request.path request.parameters).andThen fun
    | .accepted body =>
      (Act.ofOutcome (acknowledged body)).andThen fun placed =>
        (reportAccepted o placed.id).bind fun _ => .ok (some placed.id)
    | .rejected cause => (reportRejected o cause).bind fun _ => .ok none

/-! ## 3. Cancelling -/

/-- Where an order is cancelled, and with which parameters; its first id counts. -/
def cancellation (c : Client) (o : Order) : Outcome (String × Parameters) :=
  match o.brokerIds with
  | [] => .error (.parameters ("Order " ++ Text.ofNat o.id ++ " has no broker id"))
  | brokerId :: _ =>
    match c.surface.algoOrderPath?, o.kind.stop? with
    | some path, some _ => .ok (path, [("algoId", brokerId)])
    | _, _ =>
      (c.listing.wireSymbol o.instrument).map fun symbol =>
        (c.surface.orderPath, [("symbol", symbol), ("orderId", brokerId)])

def reportCanceled (o : Order) : Deed Unit :=
  Act.modify fun s => s.emit (.order (.ofStatus o .canceled "Canceled by host" s.instant))

def reportNotCanceled (o : Order) (cause : Fault) : Deed Unit :=
  Deed.emit (.warning "CancelRejected"
    ("Order " ++ Text.ofNat o.id ++ " could not be canceled: " ++ cause.message))

/-- Cancels an order; says whether the exchange agreed. -/
def cancelOrder (c : Client) (o : Order) : Trial Bool :=
  (Act.ofOutcome (c.cancellation o)).andThen fun (path, ps) =>
  (c.submit "DELETE" path ps).andThen fun
    | .accepted _ => (reportCanceled o).bind fun _ => .ok true
    | .rejected cause => (reportNotCanceled o cause).bind fun _ => .ok false

/-! ## 4. Open orders -/

/-- The orders of a document that is a list of them or has one under `orders`. -/
def orderList : Json → List Json
  | .array items => items
  | j =>
    match j.get? "orders" with
    | some (.array items) => items
    | _ => []

/-- A list of documents of any kind, as the items of a text. -/
def documents : Json → Decoded (List Json) := Json.decodeList (Json.decodeUntyped 1)

/-- The host's view of every order, or the first failure. -/
def openOrdersOf (l : Listing) (js : List Json) : Outcome (List OpenOrder) :=
  js.mapM fun j => (WireOrder.ofJson j).bind fun o => o.openOrder l

/-- The open orders, those that are kept apart after the others. -/
def openOrders (c : Client) : Trial (List OpenOrder) :=
  (getSigned c.toRest c.surface.openOrdersPath documents).andThen fun regular =>
    match c.surface.openAlgoOrdersPath? with
    | none => .ofOutcome (openOrdersOf c.listing regular)
    | some path =>
      (getSigned c.toRest path (Json.decodeUntyped 0)).andThen fun j =>
        .ofOutcome (openOrdersOf c.listing (regular ++ orderList j))

end OrderDesk.Client
