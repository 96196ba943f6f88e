import OrderDesk.Digest.Hmac
import OrderDesk.Rest.Http

/-!
# Signed requests

A signed request carries, after the parameters of the caller, the window within which it may
arrive (if one is set), its time stamp, and a keyed hash of all of that.  The key of the account
travels in a header; the secret does not travel at all.
-/

namespace OrderDesk

/-- What requests are signed with. -/
structure Signer where
  apiKey : String
  secret : String
  receiveWindow : Option Nat
deriving DecidableEq

namespace Signer

/-- The header that carries the key. -/
def keyHeader : String := "X-MBX-APIKEY"

def headers (s : Signer) : List (String × String) := [(keyHeader, s.apiKey)]

/-- The keyed hash of a text. -/
def signature (s : Signer) (payload : String) : String := Digest.hmacHex s.secret payload

/-- The parameters that are added before the hash. -/
def stamps (s : Signer) (timestamp : Nat) : Parameters :=
  match s.receiveWindow with
  | some window => [("recvWindow", Text.ofNat window), ("timestamp", Text.ofNat timestamp)]
  | none => [("timestamp", Text.ofNat timestamp)]

/-- Two texts of parameters as one. -/
def joined (first second : String) : String :=
  if first.isEmpty then second else first ++ "&" ++ second

/-- The text that is hashed. -/
def signedText (s : Signer) (payload : String) (timestamp : Nat) : String :=
  joined payload (canonicalQuery (s.stamps timestamp))

/-- The parameters that are added to a payload. -/
def appended (s : Signer) (payload : String) (timestamp : Nat) : Parameters :=
  s.stamps timestamp ++ [("signature", s.signature (s.signedText payload timestamp))]

/-- What may be shown of a signer. -/
def readable (s : Signer) : String :=
  "signer, window " ++ ((s.receiveWindow.map Text.ofNat).getD "none")

end Signer

/-- How much a request has to prove. -/
inductive Access where
  | open
  | key
  | signed
deriving DecidableEq, Repr

def Access.names : List (String × Access) :=
  [("Public", .open), ("ApiKey", .key), ("Signed", .signed)]

/-- A payload with further parameters. -/
def extendPayload (payload : String) (ps : Parameters) : String :=
  ps.foldl (fun text p => Signer.joined text (p.1 ++ "=" ++ p.2)) payload

/-- Puts a payload where the verb wants it. -/
def HttpRequest.carrying (method path payload : String) (headers : List (String × String)) :
    HttpRequest :=
  if method = "POST" then
    ⟨method, path, "", if payload.isEmpty then none else some payload, headers⟩
  else ⟨method, path, payload, none, headers⟩

/-- The request that is sent, with its time stamp if it is signed.  Without a signer only open
requests can be sent. -/
def HttpRequest.prepare (signer : Option Signer) (method path payload : String) (access : Access)
    (timestamp : Nat) : Outcome HttpRequest :=
  match access, signer with
  | .open, _ => .ok (.carrying method path payload [])
  | _, none => .error (.authentication "Authentication required but no signer provided")
  | .key, some s => .ok (.carrying method path payload s.headers)
  | .signed, some s =>
    .ok (.carrying method path (extendPayload payload (s.appended payload timestamp)) s.headers)

end OrderDesk
