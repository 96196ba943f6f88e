import OrderDesk.Event
import OrderDesk.MarketData
import OrderDesk.Proofs.Amounts
import OrderDesk.Proofs.Records.Instants
import OrderDesk.Proofs.Records.Reordered

/-!
# Records that survive their text

The records of the host are written and read: orders, open orders, ticks, bars, requests for
histories and events.  Whatever stands in them, the text is read, and what is read is the record
that was written, but for two things (`reread`, `records_survive`).  A zero loses its sign, so
amounts are the same as numbers and perhaps not the same in writing.  A leap second that does not
end its minute is read as the second after it (`strayRequest_moves`); every other instant is read to
the nanosecond, and texts to the character.

A record may be written with its fields in any order.
-/

namespace OrderDesk

open Json

/-! ## 1. What is read of a record -/

/-- The kind as its text is read. -/
def OrderKind.reread : OrderKind → OrderKind
  | market => market
  | limit price postOnly => limit price.reread postOnly
  | stopLimit stop price => stopLimit stop.reread price.reread
  | stopMarket stop => stopMarket stop.reread

/-- The order as its text is read. -/
def Order.reread (o : Order) : Order :=
  { o with
    quantity := o.quantity.reread
    kind := o.kind.reread
    createdAt := o.createdAt.reread }

/-- The open order as its text is read. -/
def OpenOrder.reread (o : OpenOrder) : OpenOrder :=
  { o with
    quantity := o.quantity.reread
    executed := o.executed.reread
    kind := o.kind.reread
    time := o.time.reread }

/-- The tick as its text is read. -/
def Tick.reread : Tick → Tick
  | trade i time price quantity => trade i time.reread price.reread quantity.reread
  | quote i time bidPrice bidSize askPrice askSize =>
    quote i time.reread bidPrice.reread bidSize.reread askPrice.reread askSize.reread

/-- The bar as its text is read. -/
def Bar.reread (b : Bar) : Bar :=
  ⟨b.openTime.reread, b.openPrice.reread, b.high.reread, b.low.reread, b.close.reread,
    b.volume.reread⟩

/-- The request as its text is read. -/
def HistoryRequest.reread (r : HistoryRequest) : HistoryRequest :=
  { r with
    start := r.start.reread
    finish := r.finish.reread }

/-- The change of an order as its text is read. -/
def OrderEvent.reread (e : OrderEvent) : OrderEvent :=
  { e with
    time := e.time.reread
    fillPrice := e.fillPrice.reread
    fillQuantity := e.fillQuantity.reread
    fee := e.fee.reread }

/-- The event as its text is read. -/
def Event.reread : Event → Event
  | order e => order e.reread
  | orderIds orderId brokerIds => orderIds orderId brokerIds
  | message kind code text => message kind code text

/-- The number of an order in an event, where there is one. -/
def Event.orderId? : Event → Option Nat
  | order e => some e.orderId
  | orderIds orderId _ => some orderId
  | message .. => none

/-! ## 2. Leaves -/

/-- **An amount is read as the number that it is.** -/
theorem Decimal.reads (d : Decimal) : Reads ofJson d.toJson d.reread := by
  refine reads_of_string ?_
  simp only [ofJson, decodeText, ofText?_toText_reread]

/-- **An instant is read to the nanosecond.** -/
theorem Instant.reads (t : Instant) : Reads ofJson t.toJson t.reread := by
  refine reads_of_string ?_
  simp only [ofJson, ofText?_toText]

theorem Direction.reads (d : Direction) : Reads (decodeName names) (.string d.name) d :=
  reads_name (by cases d <;> rfl)

theorem SecurityKind.reads (k : SecurityKind) : Reads (decodeName names) (.string k.name) k :=
  reads_name (by cases k <;> rfl)

theorem TimeInForce.reads (t : TimeInForce) : Reads (decodeName names) (.string t.name) t :=
  reads_name (by cases t <;> rfl)

theorem OrderStatus.reads (s : OrderStatus) : Reads (decodeName names) (.string s.name) s :=
  reads_name (by cases s <;> rfl)

theorem Resolution.reads (r : Resolution) : Reads (decodeName names) (.string r.name) r :=
  reads_name (by cases r <;> rfl)

theorem TickKind.reads (k : TickKind) : Reads (decodeName names) (.string k.name) k :=
  reads_name (by cases k <;> rfl)

theorem MessageKind.reads (k : MessageKind) : Reads (decodeName names) (.string k.name) k :=
  reads_name (by cases k <;> rfl)

/-! ## 3. Records -/

theorem Instrument.reads (i : Instrument) : Reads ofJson i.toJson i := by
  refine reads_record (by simp) fun gs field => ?_
  exact .required (field (by simp) (reads_string _)) <|
    .required (field (by simp) (SecurityKind.reads _)) <|
    .required (field (by simp) (reads_string _)) <| .pure rfl

theorem OrderKind.reads (k : OrderKind) :
    Reads ofJson k.toJson k.reread := by
  cases k with
  | market => exact reads_of_string rfl
  | limit price postOnly =>
    refine reads_alternative (fun _ => rfl) (reads_record (by simp) fun gs field => ?_)
    exact .required (field (by simp) price.reads) <|
      .required (field (by simp) (reads_bool postOnly)) <| .pure rfl
  | stopLimit stop price =>
    refine reads_alternative (fun _ => rfl) (reads_record (by simp) fun gs field => ?_)
    exact .required (field (by simp) stop.reads) <|
      .required (field (by simp) price.reads) <| .pure rfl
  | stopMarket stop =>
    refine reads_alternative (fun _ => rfl) (reads_record (by simp) fun gs field => ?_)
    exact .required (field (by simp) stop.reads) <| .pure rfl

theorem Order.reads (o : Order) (hid : o.id < Word.bound64) :
    Reads ofJson o.toJson o.reread := by
  refine reads_record (by simp) fun gs field => ?_
  exact .required (field (by simp) (reads_word64 hid)) <|
    .required (field (by simp) o.instrument.reads) <|
    .required (field (by simp) o.direction.reads) <|
    .required (field (by simp) o.quantity.reads) <|
    .required (field (by simp) o.kind.reads) <|
    .required (field (by simp) o.timeInForce.reads) <|
    .required (field (by simp) (reads_list reads_string o.brokerIds)) <|
    .required (field (by simp) o.createdAt.reads) <| .pure rfl

theorem OpenOrder.reads (o : OpenOrder) :
    Reads ofJson o.toJson o.reread := by
  refine reads_record (by simp) fun gs field => ?_
  exact .required (field (by simp) (reads_string o.brokerId)) <|
    .required (field (by simp) (reads_bool o.isAlgo)) <|
    .required (field (by simp) o.instrument.reads) <|
    .required (field (by simp) o.direction.reads) <|
    .required (field (by simp) o.quantity.reads) <|
    .required (field (by simp) o.executed.reads) <|
    .required (field (by simp) o.kind.reads) <|
    .required (field (by simp) (reads_string o.status)) <|
    .required (field (by simp) o.time.reads) <| .pure rfl

theorem Tick.reads (t : Tick) : Reads ofJson t.toJson t.reread := by
  cases t with
  | trade i time price quantity =>
    refine reads_alternative (fun _ => rfl) (reads_record (by simp) fun gs field => ?_)
    exact .required (field (by simp) i.reads) <|
      .required (field (by simp) time.reads) <|
      .required (field (by simp) price.reads) <|
      .required (field (by simp) quantity.reads) <| .pure rfl
  | quote i time bidPrice bidSize askPrice askSize =>
    refine reads_alternative (fun _ => rfl) (reads_record (by simp) fun gs field => ?_)
    exact .required (field (by simp) i.reads) <|
      .required (field (by simp) time.reads) <|
      .required (field (by simp) bidPrice.reads) <|
      .required (field (by simp) bidSize.reads) <|
      .required (field (by simp) askPrice.reads) <|
      .required (field (by simp) askSize.reads) <| .pure rfl

theorem Bar.reads (b : Bar) : Reads ofJson b.toJson b.reread := by
  refine reads_record (by simp) fun gs field => ?_
  exact .required (field (by simp) b.openTime.reads) <|
    .required (field (by simp) b.openPrice.reads) <|
    .required (field (by simp) b.high.reads) <|
    .required (field (by simp) b.low.reads) <|
    .required (field (by simp) b.close.reads) <|
    .required (field (by simp) b.volume.reads) <| .pure rfl

theorem HistoryRequest.reads (r : HistoryRequest) : Reads ofJson r.toJson r.reread := by
  refine reads_record (by simp) fun gs field => ?_
  exact .required (field (by simp) r.instrument.reads) <|
    .required (field (by simp) r.start.reads) <|
    .required (field (by simp) r.finish.reads) <|
    .required (field (by simp) r.resolution.reads) <|
    .required (field (by simp) r.tickKind.reads) <| .pure rfl

theorem OrderEvent.reads (e : OrderEvent) (hid : e.orderId < Word.bound64) :
    Reads ofJson e.toJson e.reread := by
  refine reads_record (by simp) fun gs field => ?_
  exact .required (field (by simp) (reads_word64 hid)) <|
    .required (field (by simp) e.instrument.reads) <|
    .required (field (by simp) e.time.reads) <|
    .required (field (by simp) e.status.reads) <|
    .required (field (by simp) e.direction.reads) <|
    .required (field (by simp) e.fillPrice.reads) <|
    .required (field (by simp) e.fillQuantity.reads) <|
    .required (field (by simp) e.fee.reads) <|
    .optional (field (by simp) (reads_option e.feeCurrency)) <|
    .required (field (by simp) (reads_string e.message)) <| .pure rfl

theorem Event.reads (e : Event) (hid : ∀ id ∈ e.orderId?, id < Word.bound64) :
    Reads ofJson e.toJson e.reread := by
  cases e with
  | order e =>
    have hread : Reads (fun k => (OrderEvent.ofJson k).map order) e.toJson
        (order e.reread) := by
      intro j' hj'
      simp only [e.reads (hid _ rfl) j' hj', Except.map]
    exact reads_alternative (fun _ => rfl) hread
  | orderIds orderId brokerIds =>
    refine reads_alternative (fun _ => rfl) (reads_record (by simp) fun gs field => ?_)
    exact .required (field (by simp) (reads_word64 (hid orderId rfl))) <|
      .required (field (by simp) (reads_list reads_string brokerIds)) <| .pure rfl
  | message kind code text =>
    refine reads_alternative (fun _ => rfl) (reads_record (by simp) fun gs field => ?_)
    exact .required (field (by simp) kind.reads) <|
      .required (field (by simp) (reads_string code)) <|
      .required (field (by simp) (reads_string text)) <| .pure rfl

/-! ## 4. What can be written -/

@[simp] theorem Decimal.legible (d : Decimal) : Legible d.toJson := .string _

@[simp] theorem Instant.legible (t : Instant) : Legible t.toJson := .string _

@[simp] theorem Instrument.legible (i : Instrument) : Legible i.toJson := by
  simp [Instrument.toJson]

@[simp] theorem OrderKind.legible (k : OrderKind) : Legible k.toJson := by
  cases k <;> simp [OrderKind.toJson]

theorem Order.legible (o : Order) (hid : o.id < Word.bound64) : Legible o.toJson := by
  simp [Order.toJson, hid]

theorem OpenOrder.legible (o : OpenOrder) : Legible o.toJson := by
  simp [OpenOrder.toJson]

theorem Tick.legible (t : Tick) : Legible t.toJson := by
  cases t <;> simp [Tick.toJson]

theorem Bar.legible (b : Bar) : Legible b.toJson := by
  simp [Bar.toJson]

theorem HistoryRequest.legible (r : HistoryRequest) : Legible r.toJson := by
  simp [HistoryRequest.toJson]

theorem Event.legible (e : Event) (hid : ∀ id ∈ e.orderId?, id < Word.bound64) :
    Legible e.toJson := by
  cases e with
  | order e => simp [Event.toJson, OrderEvent.toJson, hid e.orderId rfl]
  | orderIds orderId brokerIds => simp [Event.toJson, hid orderId rfl]
  | message kind code text => simp [Event.toJson]

/-! ## 5. Written and read -/

/-- **The records of the host survive their text.**  Whatever stands in a record, its text is read,
in whatever order its fields are written, and what is read is the record: its amounts are the same
numbers, and its instants the same to the nanosecond, a leap second within a minute being the second
after it.  The numbers of orders have 64 bits. -/
theorem records_survive :
    (∀ d : Decimal, d.reread.value = d.value) ∧
    (∀ t : Instant, t.reread.count = t.count ∧ (t.reread = t ↔ ¬ t.IsStray)) ∧
    (∀ o : Order, o.id < Word.bound64 → ∀ j, Reorders o.toJson j →
      decodeText Order.ofJson (print j) = .ok o.reread) ∧
    (∀ o : OpenOrder, ∀ j, Reorders o.toJson j →
      decodeText OpenOrder.ofJson (print j) = .ok o.reread) ∧
    (∀ t : Tick, ∀ j, Reorders t.toJson j → decodeText Tick.ofJson (print j) = .ok t.reread) ∧
    (∀ b : Bar, ∀ j, Reorders b.toJson j → decodeText Bar.ofJson (print j) = .ok b.reread) ∧
    (∀ r : HistoryRequest, ∀ j, Reorders r.toJson j →
      decodeText HistoryRequest.ofJson (print j) = .ok r.reread) ∧
    (∀ e : Event, (∀ id ∈ e.orderId?, id < Word.bound64) → ∀ j, Reorders e.toJson j →
      decodeText Event.ofJson (print j) = .ok e.reread) :=
  ⟨Decimal.value_reread,
    fun t => ⟨t.count_reread, Instant.reread_eq_iff⟩,
    fun o hid _ => (o.reads hid).decodeText (o.legible hid),
    fun o _ => o.reads.decodeText o.legible,
    fun t _ => t.reads.decodeText t.legible,
    fun b _ => b.reads.decodeText b.legible,
    fun r _ => r.reads.decodeText r.legible,
    fun e hid _ => (e.reads hid).decodeText (e.legible hid)⟩

/-- A sale of nothing, with a quotation mark in its ticker, from within the leap second of a
minute. -/
def leapSale : Order :=
  ⟨7, ⟨"BTC\"USDT", .crypto, "binance"⟩, .sell, -.zero, .market, .goodTilCanceled, ["12"],
    (Instant.ofParts? 59 1500000000).getD .epoch⟩

/-- The sale is read from its text, and so is the news of it; the quantity is the number that it
was, without its sign, and the time the one that it was. -/
theorem records_survive_leapSale :
    leapSale.id < Word.bound64 ∧
    decodeText Order.ofJson (print leapSale.toJson) = .ok leapSale.reread ∧
    leapSale.reread.quantity = .zero ∧ leapSale.reread.createdAt = leapSale.createdAt ∧
    (∀ id ∈ (Event.orderIds leapSale.id leapSale.brokerIds).orderId?, id < Word.bound64) ∧
    decodeText Event.ofJson (print (Event.orderIds leapSale.id leapSale.brokerIds).toJson) =
      .ok (.orderIds leapSale.id leapSale.brokerIds) := by
  have hid : leapSale.id < Word.bound64 := by decide
  have hevent : ∀ id ∈ (Event.orderIds leapSale.id leapSale.brokerIds).orderId?,
      id < Word.bound64 := by
    rintro _ ⟨⟩
    exact hid
  obtain ⟨-, htimes, horder, -, -, -, -, hevents⟩ := records_survive
  exact ⟨hid, horder leapSale hid _ (.same _), rfl,
    (htimes leapSale.createdAt).2.mpr (by decide), hevent, hevents _ hevent _ (.same _)⟩

/-- A request for a history that begins in a leap second within a minute. -/
def strayRequest : HistoryRequest where
  instrument := ⟨"BTCUSDT", .crypto, "binance"⟩
  start := (Instant.ofParts? 30 1500000000).getD .epoch
  finish := (Instant.ofParts? 90 0).getD .epoch
  resolution := .minute
  tickKind := .trade

/-- What is read of this request is another one: it begins in the second after the leap second. -/
theorem strayRequest_moves :
    decodeText HistoryRequest.ofJson (print strayRequest.toJson) =
      .ok { strayRequest with start := (Instant.ofParts? 31 500000000).getD .epoch } ∧
    decodeText HistoryRequest.ofJson (print strayRequest.toJson) ≠ .ok strayRequest := by
  have hread : decodeText HistoryRequest.ofJson (print strayRequest.toJson) =
      .ok strayRequest.reread := strayRequest.reads.decodeText strayRequest.legible (.same _)
  refine ⟨hread.trans (congrArg Except.ok (by decide)), fun hsame => ?_⟩
  have hstart : strayRequest.start.reread = strayRequest.start :=
    congrArg HistoryRequest.start (Except.ok.inj (hread.symm.trans hsame))
  exact Instant.reread_eq_iff.mp hstart (by decide)

end OrderDesk
