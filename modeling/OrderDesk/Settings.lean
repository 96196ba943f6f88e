import OrderDesk.Market.Surface
import OrderDesk.Power
import OrderDesk.Settings.EnvFile
import OrderDesk.Span

/-!
# Settings

What a desk is set up with: the keys of the account, the venue, addresses that replace the usual
ones, and the limits it keeps.  Settings come from a document, from the environment, or are built
up one by one; whatever their origin, `validate` refuses those that can never work.

The document of settings never shows a key.
-/

namespace OrderDesk

/-- How often a request that met a full quota is sent again; the pause before the `n`-th
repetition is `n` steps. -/
structure RetryPolicy where
  attempts : Nat
  step : Span
deriving DecidableEq

/-- How many requests may be sent within a window. -/
structure Quota where
  requests : Nat
  window : Span
deriving DecidableEq

namespace RetryPolicy

/-- Five attempts, one second more before each. -/
def standard : RetryPolicy := ⟨5, Span.ofMillis 1000 (by decide)⟩

def toJson (p : RetryPolicy) : Json :=
  .object [("backoff_step", p.step.toJson), ("max_attempts", .ofNat p.attempts)]

/-- Reads a document. -/
def ofJson : Json → Decoded RetryPolicy :=
  Json.decodeRecord do
    let attempts ← Json.required "max_attempts" Json.decodeWord32
    let step ← Json.required "backoff_step" Span.ofJson
    return ⟨attempts, step⟩

end RetryPolicy

namespace Quota

/-- Twelve hundred requests in a minute. -/
def standard : Quota := ⟨1200, Span.ofMillis 60000 (by decide)⟩

def toJson (q : Quota) : Json :=
  .object [("requests", .ofNat q.requests), ("window", q.window.toJson)]

/-- Reads a document. -/
def ofJson : Json → Decoded Quota :=
  Json.decodeRecord do
    let requests ← Json.required "requests" Json.decodeWord32
    let window ← Json.required "window" Span.ofJson
    return ⟨requests, window⟩

end Quota

/-- What a desk is set up with. -/
structure Settings where
  apiKey : String
  secret : String
  venue : Venue
  testnet : Bool := false
  restUrl : Option String := none
  socketUrl : Option String := none
  connections : Option Nat := none
  receiveWindow : Option Nat := none
  quota : Quota := Quota.standard
  retry : RetryPolicy := RetryPolicy.standard
deriving DecidableEq

namespace Settings

/-- Settings without keys, for public data. -/
def readOnly (venue : Venue) : Settings := ⟨"", "", venue, false, none, none, none, none,
  Quota.standard, RetryPolicy.standard⟩

def hasKeys (s : Settings) : Bool := !s.apiKey.isEmpty && !s.secret.isEmpty

/-- Refuses settings that can never work. -/
def validate (s : Settings) : Except SettingsFault Unit :=
  if s.connections = some 0 then
    .error (.invalid "max_websocket_connections must be at least 1")
  else if s.retry.attempts = 0 then .error (.invalid "retry.max_attempts must be at least 1")
  else if s.quota.requests = 0 ∨ s.quota.window.isZero then
    .error (.invalid "rest_quota must allow at least one request per non-empty window")
  else .ok ()

def restAddress (s : Settings) (surface : Surface) : String :=
  s.restUrl.getD (surface.restUrl s.testnet)

def socketAddress (s : Settings) (surface : Surface) : String :=
  s.socketUrl.getD (surface.socketUrl s.testnet)

/-! ## 1. Documents -/

/-- An optional text as a document. -/
def textOrNull (s : Option String) : Json := Json.ofOption (s.map Json.string)

/-- An optional number as a document. -/
def countOrNull (n : Option Nat) : Json := Json.ofOption (n.map Json.ofNat)

/-- What stands for a key. -/
def hidden : Json := .string "[REDACTED]"

/-- The document. -/
def toJson (s : Settings) : Json :=
  .object [
    ("api_key", hidden),
    ("max_websocket_connections", countOrNull s.connections),
    ("recv_window_ms", countOrNull s.receiveWindow),
    ("rest_quota", s.quota.toJson),
    ("rest_url", textOrNull s.restUrl),
    ("retry", s.retry.toJson),
    ("secret_key", hidden),
    ("testnet", .bool s.testnet),
    ("venue", s.venue.toJson),
    ("ws_url", textOrNull s.socketUrl)]

/-- Reads a document. -/
def ofJson : Json → Decoded Settings :=
  Json.decodeRecord do
    let apiKey ← Json.required "api_key" Json.decodeString
    let secret ← Json.required "secret_key" Json.decodeString
    let venue ← Json.required "venue" Venue.ofJson
    let testnet ← Json.defaulted "testnet" false Json.decodeBool
    let restUrl ← Json.optional "rest_url" Json.decodeString
    let socketUrl ← Json.optional "ws_url" Json.decodeString
    let connections ← Json.optional "max_websocket_connections" Json.decodeWord64
    let receiveWindow ← Json.optional "recv_window_ms" Json.decodeWord64
    let quota ← Json.defaulted "rest_quota" Quota.standard Quota.ofJson
    let retry ← Json.defaulted "retry" RetryPolicy.standard RetryPolicy.ofJson
    return ⟨apiKey, secret, venue, testnet, restUrl, socketUrl, connections, receiveWindow, quota,
      retry⟩

/-! ## 2. The environment -/

/-- Reads the digits of a count from left to right onto `value`; the first thing wrong counts. -/
def readCount : (value : Nat) → List Char → Except String Nat
  | value, [] => .ok value
  | value, c :: rest =>
    match Text.digit? c with
    | none => .error "invalid digit found in string"
    | some d =>
      if value * 10 + d < Word.bound64 then readCount (value * 10 + d) rest
      else .error "number too large to fit in target type"

/-- Reads a 64-bit count, which may have a plus sign. -/
def countOfText (s : String) : Except String Nat :=
  match s.toList with
  | [] => .error "cannot parse integer from empty string"
  | ['+'] => .error "invalid digit found in string"
  | '+' :: rest => readCount 0 rest
  | cs => readCount 0 cs

/-- The name of a variable: a stem in capitals, and what it is for. -/
def variableName (stem what : String) : String := Text.upper stem ++ "_" ++ what

/-- A variable that has to be there. -/
def neededVariable (env : Environment) (name : String) : Except SettingsFault String :=
  match env.get? name with
  | some text => .ok text
  | none => .error (.missingVariable name)

/-- The venue that a variable names, if it is there. -/
def venueVariable (env : Environment) (name : String) : Except SettingsFault Venue :=
  match env.get? name with
  | some text => Venue.ofSetting text
  | none => .ok .binance

/-- The count that a variable holds, if it is there. -/
def countVariable (env : Environment) (name : String) : Except SettingsFault (Option Nat) :=
  match env.get? name with
  | none => .ok none
  | some text =>
    match countOfText text with
    | .ok n => .ok (some n)
    | .error cause => .error (.invalid (name ++ " must be a positive integer: " ++ cause))

/-- Settings from the environment.  Tests are traded only if the variable says `true`. -/
def ofEnvironment (env : Environment) (stem : String) : Except SettingsFault Settings := do
  let name := variableName stem
  let apiKey ← neededVariable env (name "API_KEY")
  let secret ← neededVariable env (name "SECRET_KEY")
  let venue ← venueVariable env (name "VENUE")
  let connections ← countVariable env (name "MAX_WS_CONNECTIONS")
  let settings : Settings :=
    { readOnly venue with
      apiKey, secret, connections
      testnet := env.get? (name "TESTNET") == some "true"
      restUrl := env.get? (name "REST_URL")
      socketUrl := env.get? (name "WS_URL") }
  settings.validate
  return settings

/-- Settings from the environment and a file, which adds what the environment lacks; without a
file, from the environment alone. -/
def ofEnvFile (env : Environment) (path : String) (content : Option String) (stem : String) :
    Except SettingsFault Settings :=
  match content with
  | none => ofEnvironment env stem
  | some text => (env.load path text).bind fun env => ofEnvironment env stem

end Settings
end OrderDesk
