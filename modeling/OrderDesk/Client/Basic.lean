import OrderDesk.Power
import OrderDesk.Rest
import OrderDesk.Wire.Account
import OrderDesk.Wire.Market

/-!
# The client of a surface

What can be asked of the exchange on one surface, in the host's terms: the listing, the clock,
balances and holdings, statistics, prices and bars.  Public data needs no signature, the account
does.
-/

namespace OrderDesk

/-- A client: how it sends requests, and the listing of its surface. -/
structure Client extends Rest where
  listing : Listing
deriving DecidableEq

namespace Client

def surface (c : Client) : Surface := c.listing.surface

/-- Asks for public data. -/
def getOpen {α : Type} (r : Rest) (path : String) (ps : Parameters) (decode : Json → Decoded α) :
    Trial α :=
  r.request "GET" path ps .open decode

/-- Asks for data of the account. -/
def getSigned {α : Type} (r : Rest) (path : String) (decode : Json → Decoded α) : Trial α :=
  r.request "GET" path [] .signed decode

/-! ## 1. The listing and the clock -/

/-- The symbols that a surface lists. -/
def symbols (r : Rest) (s : Surface) : Trial (List ListedSymbol) :=
  getOpen r s.listingPath [] ListedSymbol.listOfJson

/-- The client of a surface, once its listing is known. -/
def connect (r : Rest) (s : Surface) : Trial Client :=
  (symbols r s).andThen fun symbols => .ok ⟨r, .ofSymbols s symbols⟩

/-- The client of a surface, as the settings say. -/
def opening (settings : Settings) (s : Surface) : Trial Client :=
  (Rest.opening settings s).andThen fun r => connect r s

/-- A difference of 64-bit numbers, if it is one. -/
def difference? (a b : Int) : Option Int :=
  if Word.holds (a - b) then some (a - b) else none

/-- Measures the clock of the exchange; later stamps follow it. -/
def syncClock (c : Client) : Trial Int :=
  (getOpen c.toRest c.surface.timePath [] Wire.serverTime).andThen fun time =>
    .access id fun s =>
      match difference? time s.clock with
      | none => .halt .difference
      | some offset =>
        .access (fun s => { s with nonce := { s.nonce with offset } }) fun _ => .ok offset

/-! ## 2. The account -/

/-- The lines whose amount is not zero; `none` if an amount is out of range. -/
def nonZero? : List Balance → Option (List Balance)
  | [] => some []
  | b :: rest =>
    match b.amount? with
    | none => none
    | some amount => (nonZero? rest).map fun bs => if amount.isZero then bs else b :: bs

/-- The lines of the account whose amount is not zero. -/
def balances (c : Client) : Trial (List Balance) :=
  (getSigned c.toRest c.surface.accountPath (Wire.balances c.surface)).andThen fun bs =>
    .lift (.orHalt .amountSum (nonZero? bs))

/-- The lines of the account as cash. -/
def cash (c : Client) : Trial (List CashAmount) :=
  c.balances.andThen fun bs => .lift (.orHalt .amountSum (bs.mapM Balance.cash?))

/-- The positions that are not empty; only futures accounts have any. -/
def holdings (c : Client) : Trial (List Holding) :=
  if c.surface.isFutures then
    (getSigned c.toRest c.surface.accountPath Wire.futuresAccount).andThen fun a =>
      .ok (a.holdings c.listing)
  else .ok []

/-! ## 3. The market -/

def statistics (c : Client) : Trial (List DayStatistics) :=
  getOpen c.toRest c.surface.statisticsPath [] (Json.decodeList Wire.statistics)

def prices (c : Client) : Trial (List LastPrice) :=
  getOpen c.toRest c.surface.pricePath [] (Json.decodeList Wire.lastPrice)

/-- The first item of a list that is not empty; anything else as it is. -/
def firstItem : Json → Json
  | .array (j :: _) => j
  | j => j

/-- The last price of a wire symbol.  Some surfaces answer with a list of one. -/
def price (c : Client) (symbol : String) : Trial Decimal :=
  (getOpen c.toRest c.surface.pricePath [("symbol", symbol)] (Json.decodeUntyped 0)).andThen
    fun j =>
      match Wire.lastPrice (firstItem j) with
      | .ok p => .ok p.price
      | .error m => .fail (.document m.message)

/-- A page of bars. -/
def bars (c : Client) (symbol interval : String) (start finish : Int) (limit : Nat) :
    Trial (List Wire.BarRow) :=
  getOpen c.toRest c.surface.barsPath
    [("symbol", symbol), ("interval", interval), ("startTime", Text.ofInt start),
      ("endTime", Text.ofInt finish), ("limit", Text.ofNat limit)]
    (Json.decodeList Wire.barRow)

end Client
end OrderDesk
