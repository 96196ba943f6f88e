import OrderDesk.Client.Basic
import OrderDesk.Power

/-!
# Bars of the past

A history is read page by page, forward in time.  A page is asked for from the cursor to the end;
of its rows those within these bounds are the bars, and the cursor moves one interval past the
newest row of the page, within the bounds or not.  The history ends where the cursor has passed
the end, where a page is empty, and where a page brings no bar within the bounds.

A page with a bar moves the cursor on by at least one interval, which bounds the number of pages.
-/

namespace OrderDesk

/-- Where the reading of a history stands.  Times are in milliseconds. -/
structure HistoryCursor where
  symbol : String
  interval : String
  cursor : Int
  finish : Int
  step : Nat
  limit : Nat
deriving DecidableEq, Repr

/-- How a history ended: by itself, because enough was read, or with a failure. -/
inductive HistoryEnd where
  | finished
  | stopped
  | failed (cause : Fault)
deriving DecidableEq, Repr

namespace HistoryCursor

/-- The cursor of a request that can be served. -/
def ofRequest (l : Listing) (r : HistoryRequest) : Outcome HistoryCursor :=
  if r.start.isAfter r.finish then
    .error (.parameters ("History end " ++ r.finish.readable ++ " is before start "
      ++ r.start.readable))
  else if r.tickKind ≠ .trade then
    .error (.unsupported (r.tickKind.name ++ " history is not available"))
  else
    match r.resolution.interval? with
    | none => .error (.unsupported (r.resolution.name ++ " resolution history is not available"))
    | some interval =>
      (l.wireSymbol r.instrument).map fun symbol =>
        ⟨symbol, interval, r.start.millis, r.finish.millis, r.resolution.seconds * 1000,
          l.surface.barsPerPage⟩

def covers (h : HistoryCursor) (row : Wire.BarRow) : Bool :=
  h.cursor ≤ row.openTime && row.openTime ≤ h.finish

/-- The newest open time of some rows. -/
def newest : List Wire.BarRow → Option Int
  | [] => none
  | row :: rest => some ((newest rest).elim row.openTime (max row.openTime))

/-- What a page comes to. -/
inductive Page where
  | last
  | outOfRange
  | more (bars : List Bar) (next : HistoryCursor)

/-- The bars of a page, and where to go on. -/
def page (h : HistoryCursor) (rows : List Wire.BarRow) : Page :=
  match newest rows, rows.filter h.covers with
  | some newest, bars@(_ :: _) =>
    if newest + h.step < Word.bound63 then
      .more (bars.map (·.bar)) { h with cursor := newest + h.step }
    else .outOfRange
  | _, _ => .last

/-- As many pages as there can be. -/
def pagesLeft (h : HistoryCursor) : Nat := ((h.finish - h.cursor) / h.step).toNat + 1

end HistoryCursor

namespace Client

/-- Whether `taken` bars are as many as were wanted. -/
def isEnough (wanted : Option Nat) (taken : Nat) : Bool := wanted.any (· ≤ taken)

/-- Reads up to `fuel` pages, onto the bars that were read before.  A page is asked for only when
a further bar is wanted. -/
def readPages (c : Client) (wanted : Option Nat) :
    (fuel : Nat) → HistoryCursor → List Bar → Deed (List Bar × HistoryEnd)
  | 0, _, bars => .done (bars, .finished)
  | fuel + 1, h, bars =>
    if isEnough wanted bars.length then .done (bars, .stopped)
    else if h.cursor > h.finish then .done (bars, .finished)
    else
      (c.bars h.symbol h.interval h.cursor h.finish h.limit).bind fun
        | .error cause => .done (bars, .failed cause)
        | .ok rows =>
          match h.page rows with
          | .last => .done (bars, .finished)
          | .outOfRange => .halt .sum
          | .more new next =>
            let bars := bars ++ new
            match wanted with
            | some n =>
              if n ≤ bars.length then .done (bars.take n, .stopped)
              else readPages c wanted fuel next bars
            | none => readPages c wanted fuel next bars

/-- The bars of a request, all of them or as many as are wanted. -/
def history (c : Client) (r : HistoryRequest) (wanted : Option Nat) :
    Trial (List Bar × HistoryEnd) :=
  (Act.ofOutcome (HistoryCursor.ofRequest c.listing r)).andThen fun h =>
    .lift (c.readPages wanted (h.pagesLeft + 1) h [])

end Client
end OrderDesk
