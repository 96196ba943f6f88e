import OrderDesk.Decimal.Json
import OrderDesk.Text.LetterCase

/-!
# Executions

What the account's stream says about an order: a trade, or some other step of its life.  On
futures every execution has the id of the stop order that it came from; `"0"` stands for none.
-/

namespace OrderDesk

/-- A step in the life of an order. -/
structure Execution where
  orderId : String
  algoId : Option String
  symbol : String
  kind : String
  status : String
  millis : Int
  lastPrice : Decimal
  lastQuantity : Decimal
  side : String
  fee : Decimal
  feeCurrency : Option String
deriving DecidableEq

namespace Execution

open OrderDesk.Json

/-- The id of no stop order. -/
def noAlgoId : String := "0"

/-- An id that is a string or a number. -/
def idText : Json → Option String
  | .string s => some s
  | .number n => some (numberText n)
  | _ => none

/-- Reads the fields of an execution; `futures` says that one without a stop order says so. -/
def ofJson (futures : Bool) : Json → Decoded Execution :=
  decodeRecord do
    let symbol ← required "s" decodeString
    let side ← required "S" decodeString
    let kind ← required "x" decodeString
    let status ← required "X" decodeString
    let orderId ← required "i" decodeWord64
    let lastQuantity ← required "l" Decimal.ofJsonString
    let lastPrice ← required "L" Decimal.ofJsonString
    let fee ← defaulted "n" none Decimal.ofJsonString?
    let feeCurrency ← defaulted "N" none (decodeOption decodeString)
    let millis ← required "T" decodeInt64
    let algoId ← defaulted "ai" none fun j => (decodeUntyped 1 j).map idText
    return {
      orderId := Text.ofNat orderId
      algoId := if futures then some (algoId.getD noAlgoId) else algoId
      symbol, kind, status, millis, lastPrice, lastQuantity, side
      fee := fee.getD .zero
      feeCurrency := feeCurrency.filter fun c => !c.isEmpty }

/-- Only trades and expiries matter to the host. -/
def isFill (e : Execution) : Bool :=
  Text.sameAscii e.kind "TRADE" || Text.sameAscii e.kind "EXPIRED"

/-- The id of the stop order that the execution came from. -/
def algoId? (e : Execution) : Option String :=
  e.algoId.filter fun id => !id.isEmpty && id != noAlgoId

/-- The document. -/
def toJson (e : Execution) : Json :=
  .object [
    ("algo_order_id", Json.ofOption (e.algoId.map .string)),
    ("execution_type", .string e.kind),
    ("fee", e.fee.toJson),
    ("fee_currency", Json.ofOption (e.feeCurrency.map .string)),
    ("is_fill", .bool e.isFill),
    ("last_price", e.lastPrice.toJson),
    ("last_quantity", e.lastQuantity.toJson),
    ("order_id", .string e.orderId),
    ("order_status", .string e.status),
    ("real_algo_id", Json.ofOption (e.algoId?.map .string)),
    ("side", .string e.side),
    ("symbol", .string e.symbol),
    ("time", .ofInt e.millis)]

end Execution
end OrderDesk
