import OrderDesk.Instrument
import OrderDesk.Table

/-!
# Listings

The exchange names what it trades by wire symbols, the host by tickers.  A listing leads from
either to the other for one surface.  The ticker of a symbol is the symbol itself, except that a
perpetual contract goes by its pair and that an ending `_PERP` is dropped.

Several symbols may lay claim to a ticker.  They are entered one after another: a perpetual
contract displaces whatever has the ticker, every other symbol gives way.  What was displaced or
gave way is unknown to the listing.
-/

namespace OrderDesk

/-- A symbol as the exchange lists it. -/
structure ListedSymbol where
  wire : String
  base : String
  quote : String
  status : Option String
  contract : Option String
  pair : Option String
deriving DecidableEq, Repr

namespace ListedSymbol

/-- A contract without a delivery date. -/
def isPerpetual (s : ListedSymbol) : Bool := s.contract == some "PERPETUAL"

/-- A text without this ending. -/
def dropEnding (ending s : String) : String :=
  let cs := s.toList
  let es := ending.toList
  if es.isSuffixOf cs then String.ofList (cs.take (cs.length - es.length)) else s

/-- The ticker of the host. -/
def ticker (s : ListedSymbol) : String :=
  match s.isPerpetual, s.pair with
  | true, some pair => Text.upper pair
  | _, _ => Text.upper (dropEnding "_PERP" s.wire)

/-- Reads a document. -/
def ofJson : Json → Decoded ListedSymbol :=
  Json.decodeRecord do
    let wire ← Json.required "symbol" Json.decodeString
    let base ← Json.required "baseAsset" Json.decodeString
    let quote ← Json.required "quoteAsset" Json.decodeString
    let status ← Json.defaultedAs "status" "contractStatus" none
      (Json.decodeOption Json.decodeString)
    let contract ← Json.defaulted "contractType" none (Json.decodeOption Json.decodeString)
    let pair ← Json.defaulted "pair" none (Json.decodeOption Json.decodeString)
    return ⟨wire, base, quote, status, contract, pair⟩

def listOfJson : Json → Decoded (List ListedSymbol) :=
  Json.decodeRecord do
    let symbols ← Json.required "symbols" (Json.decodeList ofJson)
    return symbols

end ListedSymbol

/-- Both ways between wire symbols and tickers, for a surface. -/
structure Listing where
  surface : Surface
  byWire : Table String ListedSymbol
  byTicker : Table String String
deriving DecidableEq, Repr

namespace Listing

def empty (surface : Surface) : Listing := ⟨surface, .empty, .empty⟩

/-- Enters a symbol. -/
def enter (l : Listing) (s : ListedSymbol) : Listing :=
  match l.byTicker.get? s.ticker with
  | none =>
    { l with byWire := l.byWire.put s.wire s, byTicker := l.byTicker.put s.ticker s.wire }
  | some holder =>
    if s.isPerpetual then
      let kept := if holder = s.wire then l.byWire else l.byWire.erase holder
      { l with byWire := kept.put s.wire s, byTicker := l.byTicker.put s.ticker s.wire }
    else l

/-- The listing of symbols in the order of the exchange. -/
def ofSymbols (surface : Surface) (symbols : List ListedSymbol) : Listing :=
  symbols.foldl enter (empty surface)

def size (l : Listing) : Nat := l.byWire.size

/-- What is known of a wire symbol. -/
def entry? (l : Listing) (wire : String) : Option ListedSymbol := l.byWire.get? wire

/-- Whether an instrument is of the kind and market of the surface. -/
def isOwn (l : Listing) (i : Instrument) : Bool :=
  i.security == l.surface.security && i.market == l.surface.market

/-- The wire symbol of an instrument. -/
def wireSymbol (l : Listing) (i : Instrument) : Outcome String :=
  if l.isOwn i then
    match l.byTicker.get? i.ticker with
    | some wire => .ok wire
    | none => .error (.unknownTicker i.ticker)
  else
    .error (.argument (i.readable ++ " cannot be traded through " ++ l.surface.label))

/-- The instrument of a wire symbol, as one of this kind and market. -/
def instrumentIn (l : Listing) (wire : String) (security : SecurityKind) (market : String) :
    Outcome Instrument :=
  match l.byWire.get? wire with
  | some s => .ok (.named s.ticker security market)
  | none => .error (.unknownTicker wire)

def instrument (l : Listing) (wire : String) : Outcome Instrument :=
  l.instrumentIn wire l.surface.security l.surface.market

def knows (l : Listing) (i : Instrument) : Bool := l.isOwn i && l.byTicker.contains i.ticker

end Listing
end OrderDesk
