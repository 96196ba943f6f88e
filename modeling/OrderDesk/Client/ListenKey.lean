import OrderDesk.Client.Basic

/-!
# The key of the account's stream

The exchange gives out one key at a time; it is extended and released under its own name.  The
three procedures keep each other out, so that nobody extends a key that is being replaced.
-/

namespace OrderDesk.Client

def listenKeyRequest {α : Type} (c : Client) (method : String) (ps : Parameters)
    (decode : Json → Decoded α) : Trial α :=
  c.request method c.surface.listenKeyPath ps .key decode

/-- Gets a new key and keeps it. -/
def createListenKey (c : Client) : Trial String :=
  Deed.withKey ((c.listenKeyRequest "POST" [] Wire.listenKey).andThen fun key =>
    .access (fun s => { s with listenKey := some key }) fun _ => .ok key)

/-- Extends the key. -/
def extendListenKey (c : Client) : Trial Unit :=
  Deed.withKey (.access id fun s =>
    match s.listenKey with
    | none => .fail .sessionNotStarted
    | some key =>
      (c.listenKeyRequest "PUT" [("listenKey", key)] (Json.decodeUntyped 0)).andThen fun _ =>
        .ok ())

/-- Releases the key, if there is one.  It is forgotten whatever the exchange says. -/
def releaseListenKey (c : Client) : Trial Unit :=
  Deed.withKey (.access (fun s => { s with listenKey := none }) fun s =>
    match s.listenKey with
    | none => .ok ()
    | some key =>
      (c.listenKeyRequest "DELETE" [("listenKey", key)] (Json.decodeUntyped 0)).andThen fun _ =>
        .ok ())

/-- The key, when nobody is working on it. -/
def currentListenKey : Deed (Option String) :=
  Deed.withKey (.access id fun s => .done s.listenKey)

end OrderDesk.Client
