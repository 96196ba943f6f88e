import OrderDesk.Client.History
import OrderDesk.Client.ListenKey
import OrderDesk.Client.Orders
import OrderDesk.Desk.Feed
import OrderDesk.Desk.Workers

/-!
# The desk

A desk serves one account on one surface: it is the client of that surface together with the
settings it was opened with.  Opening it takes two steps that can fail before anything is sent:
the settings have to make sense, and somebody has to say that the host is entitled to trade.
-/

namespace OrderDesk

/-- A desk. -/
structure Desk extends Client where
  settings : Settings
  timings : SessionTimings
deriving DecidableEq

namespace Desk

def restAddress (d : Desk) : String := d.settings.restAddress d.surface

def socketAddress (d : Desk) : String := d.settings.socketAddress d.surface

def accountAddress (d : Desk) (listenKey : String) : String :=
  trimSlashes d.socketAddress ++ "/ws/" ++ listenKey

/-- What the workers of a desk need to know. -/
def surroundings (d : Desk) : Surroundings :=
  { Surroundings.standard d.listing with timings := d.timings }

/-- Settings that make sense. -/
def checked (s : Settings) : Outcome Unit :=
  match s.validate with
  | .ok () => .ok ()
  | .error cause => .error (.settings cause)

/-- Opens a desk.  `entitlement` is what the account service says. -/
def opening (s : Settings) (entitlement : Outcome Unit) (account : AccountKind)
    (timings : SessionTimings) : Trial Desk :=
  (Act.ofOutcome (checked s)).andThen fun _ =>
  (Act.ofOutcome entitlement).andThen fun _ =>
  (Act.ofOutcome (Surface.resolve s.venue account s.testnet)).andThen fun surface =>
  (Client.opening s surface).andThen fun client =>
  .ok ⟨client, s, timings⟩

/-! ## Market data -/

/-- Bars of the past.  What the exchange does not have is no failure: the host is warned, and
there are no bars. -/
def history (d : Desk) (r : HistoryRequest) (wanted : Option Nat) :
    Trial (List Bar × HistoryEnd) :=
  (d.toClient.history r wanted).bind fun
    | .error (.unsupported reason) =>
      (Deed.emit (.warning "InvalidHistoryRequest" reason)).bind fun _ => .ok ([], .finished)
    | outcome => .done outcome

/-- The weights of symbols: how often they were traded during the last day. -/
def weightsOf (statistics : List DayStatistics) : Table String Nat :=
  .ofList (statistics.map fun d => (d.symbol, d.trades))

def weightsWarning (cause : Fault) : Event :=
  .warning "SubscriptionWeights"
    ("24h statistics unavailable, placing without weights: " ++ cause.message)

/-- Asks for the weights of symbols, the first time only. -/
def loadWeights (d : Desk) : Deed Unit :=
  .access (fun s => { s with weightsLoaded := true }) fun s =>
    if s.weightsLoaded then .done ()
    else
      d.statistics.bind fun
        | .ok statistics =>
          .modify fun s => { s with pool := s.pool.setWeights (weightsOf statistics) }
        | .error cause => Deed.emit (weightsWarning cause)

/-- Starts to deliver ticks; says whether there is room for them. -/
def subscribe (d : Desk) (wanted : Subscription) : Trial Bool :=
  d.loadWeights.bind fun _ => Feed.subscribe d.listing wanted

/-- Stops one subscription; says whether there was one. -/
def unsubscribe (d : Desk) (wanted : Subscription) : Trial Bool := Feed.unsubscribe d.listing wanted

end Desk
end OrderDesk
