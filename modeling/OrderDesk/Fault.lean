import OrderDesk.Fault.Status
import OrderDesk.Text.Digits

/-!
# What can go wrong

The causes for which an operation of the desk fails, and their wording.  A cause keeps what the
caller may want to know apart from its text: the status and body of an answer, the number of
attempts.  The one question that callers ask is whether the exchange turned the request itself
down (`isRejection`): every answer between 400 and 499, except that 429 only asks for patience.
-/

namespace OrderDesk

/-- Settings that cannot be used. -/
inductive SettingsFault where
  | missingVariable (name : String)
  | invalid (text : String)
deriving DecidableEq, Repr

def SettingsFault.message : SettingsFault → String
  | missingVariable name => "Missing environment variable: " ++ name
  | invalid text => "Invalid configuration: " ++ text

def SettingsFault.name : SettingsFault → String
  | missingVariable _ => "MissingEnvironmentVariable"
  | invalid _ => "InvalidConfiguration"

/-- Why an operation failed. -/
inductive Fault where
  | http (text : String)
  | document (text : String)
  | answer (status : Nat) (body : String)
  | throttled (attempts : Nat) (body : String)
  | authentication (text : String)
  | parameters (text : String)
  | argument (text : String)
  | unknownTicker (text : String)
  | unsupportedOrder (text : String)
  | unsupported (text : String)
  | sessionNotStarted
  | decoding (text : String)
  | encoding (text : String)
  | network (text : String)
  | timeout (text : String)
  | settings (cause : SettingsFault)
  | configuration (text : String)
  | notConnected
  | cancelled
  | other (text : String)
deriving DecidableEq, Repr

namespace Fault

/-- The wording. -/
def message : Fault → String
  | http text => "HTTP request failed: " ++ text
  | document text => "JSON parsing error: " ++ text
  | answer status body =>
    "API error: " ++ Text.ofNat status ++ " " ++ statusReason status ++ " - " ++ body
  | throttled attempts body =>
    "Rate limit still exceeded after " ++ Text.ofNat attempts ++ " attempts: " ++ body
  | authentication text => "Authentication error: " ++ text
  | parameters text => "Invalid parameters: " ++ text
  | argument text => "Invalid argument: " ++ text
  | unknownTicker text => "Unknown ticker: " ++ text
  | unsupportedOrder text => "Unsupported order: " ++ text
  | unsupported text => "Unsupported operation: " ++ text
  | sessionNotStarted => "User data session has not been started"
  | decoding text => "Deserialization error: " ++ text
  | encoding text => "Serialization error: " ++ text
  | network text => "Network error: " ++ text
  | timeout text => "Connection timeout: " ++ text
  | settings cause => "Configuration error: " ++ cause.message
  | configuration text => "Configuration error: " ++ text
  | notConnected => "Brokerage is not connected"
  | cancelled => "Operation cancelled"
  | other text => "Other error: " ++ text

/-- The name of the cause, for callers that tell causes apart. -/
def name : Fault → String
  | http _ => "HttpError"
  | document _ => "JsonError"
  | answer _ _ => "ApiError"
  | throttled _ _ => "RateLimitExceeded"
  | authentication _ => "AuthError"
  | parameters _ => "InvalidParameters"
  | argument _ => "InvalidArgument"
  | unknownTicker _ => "UnknownTicker"
  | unsupportedOrder _ => "UnsupportedOrder"
  | unsupported _ => "Unsupported"
  | sessionNotStarted => "SessionNotStarted"
  | decoding _ => "DeserializationError"
  | encoding _ => "SerializationError"
  | network _ => "NetworkError"
  | timeout _ => "ConnectionTimeout"
  | settings _ => "ConfigError"
  | configuration _ => "ConfigurationError"
  | notConnected => "NotConnected"
  | cancelled => "Cancelled"
  | other _ => "Other"

/-- A cause of every name, with this text where there is one. -/
def examples (text : String) (attempts : Nat) : List Fault :=
  [http text, document text, throttled attempts text, authentication text, parameters text,
    argument text, unknownTicker text, unsupportedOrder text, unsupported text,
    sessionNotStarted, decoding text, encoding text, network text, timeout text,
    settings (.invalid text), configuration text, notConnected, cancelled, other text]

/-- The exchange turned the request itself down. -/
def isRejection : Fault → Bool
  | answer status _ => 400 ≤ status && status < 500 && status != 429
  | _ => false

end Fault

/-- A value or the cause for which there is none. -/
abbrev Outcome (α : Type) := Except Fault α

end OrderDesk
