import OrderDesk.Stream.Message

/-!
# Sockets

A socket has two halves, one to write to and one to read from, and knows whether it takes itself
to be connected.  What the network does is not in its hands: every attempt to open it, to write or
to read has an outcome that is given from outside.

Reading answers every ping with a pong of the same content, skips pongs, and ends at a close
frame, at a failure, or when nothing more will come.  Whatever ends the connection is noted: from
then on nothing is written and nothing is read until the socket is opened again.
-/

namespace OrderDesk

/-- What reading from the network yields. -/
inductive Arrival where
  | frame (f : Frame)
  | broken (cause : String)
  | ended
deriving DecidableEq, Repr

/-- The network under a socket: what will arrive, whether the next frames can be written (and why
not), and the frames that were.  Beyond the lists nothing arrives and every frame can be
written. -/
structure Wire where
  arrivals : List Arrival
  failures : List (Option String)
  written : List Frame
deriving DecidableEq, Repr

/-- A socket. -/
structure Socket where
  writer : Bool
  reader : Bool
  connected : Bool
deriving DecidableEq, Repr

/-- What reading comes to. -/
inductive Reading (α : Type) where
  | closed
  | got (a : α)
  | failed (e : Fault)
  | waiting
deriving DecidableEq

namespace Wire

/-- A network on which nothing happens. -/
def quiet : Wire := ⟨[], [], []⟩

/-- Writes a frame. -/
def put (w : Wire) (f : Frame) : Except String Unit × Wire :=
  match w.failures with
  | [] => (.ok (), { w with written := w.written ++ [f] })
  | none :: rest => (.ok (), { w with failures := rest, written := w.written ++ [f] })
  | some cause :: rest => (.error cause, { w with failures := rest })

end Wire

namespace Socket

def closed : Socket := ⟨false, false, false⟩

instance : Inhabited Socket := ⟨closed⟩

def opened : Socket := ⟨true, true, true⟩

/-- The failure of an attempt to connect. -/
def connectFault (cause : String) : Fault := .network ("WebSocket connection failed: " ++ cause)

/-- The socket after an attempt to connect. -/
def connect (s : Socket) (outcome : Outcome Unit) : Socket :=
  match outcome with
  | .ok () => opened
  | .error _ => s

/-- Writes a frame; a failure ends the connection. -/
def send (s : Socket) (w : Wire) (f : Frame) : Outcome Unit × Socket × Wire :=
  if s.connected && s.writer then
    match w.put f with
    | (.ok (), w) => (.ok (), s, w)
    | (.error cause, w) =>
      (.error (.network ("Failed to send WebSocket message: " ++ cause)),
        { s with connected := false }, w)
  else (.error .notConnected, s, w)

/-- Says goodbye, if there is a half to write to, and drops both. -/
def close (s : Socket) (w : Wire) : Socket × Wire :=
  (closed, if s.writer then (w.put .close).2 else w)

/-- Takes in what arrived: a data frame, the end, or nothing that the reader needs to see. -/
def hear (s : Socket) (w : Wire) : Arrival → Reading Frame × Socket × Wire
  | .frame (.ping bytes) =>
    let (_, s, w) := s.send w (.pong bytes)
    (.waiting, s, w)
  | .frame (.pong _) => (.waiting, s, w)
  | .frame .close => (.closed, { s with connected := false }, w)
  | .frame f => (.got f, s, w)
  | .broken cause =>
    (.failed (.network ("WebSocket error: " ++ cause)), { s with connected := false }, w)
  | .ended => (.closed, { s with connected := false }, w)

/-- Reads up to the next data frame. -/
def readFrom (s : Socket) (w : Wire) : List Arrival → Reading Frame × Socket × Wire
  | [] =>
    if s.connected && s.reader then (.waiting, s, { w with arrivals := [] })
    else (.closed, s, { w with arrivals := [] })
  | a :: rest =>
    if s.connected && s.reader then
      match s.hear w a with
      | (.waiting, s, w) => readFrom s w rest
      | (r, s, w) => (r, s, { w with arrivals := rest })
    else (.closed, s, { w with arrivals := a :: rest })

def nextFrame (s : Socket) (w : Wire) : Reading Frame × Socket × Wire := s.readFrom w w.arrivals

/-- What a data frame comes to; frames without a message are passed over. -/
def decode (futures : Bool) (f : Frame) : Reading StreamMessage :=
  match StreamMessage.ofFrame futures f with
  | .ok (some m) => .got m
  | .ok none => .waiting
  | .error e => .failed e

/-- Reads up to the next message; `fuel` bounds the number of data frames. -/
def messageFrom (futures : Bool) :
    (fuel : Nat) → Socket → Wire → Reading StreamMessage × Socket × Wire
  | 0, s, w => (.waiting, s, w)
  | fuel + 1, s, w =>
    match s.nextFrame w with
    | (.got f, s, w) =>
      match decode futures f with
      | .waiting => messageFrom futures fuel s w
      | r => (r, s, w)
    | (.closed, s, w) => (.closed, s, w)
    | (.failed e, s, w) => (.failed e, s, w)
    | (.waiting, s, w) => (.waiting, s, w)

def nextMessage (futures : Bool) (s : Socket) (w : Wire) :
    Reading StreamMessage × Socket × Wire :=
  messageFrom futures (w.arrivals.length + 1) s w

/-- Asks for streams, or for no more of them; an empty list asks for nothing. -/
def control (s : Socket) (w : Wire) (verb : StreamVerb) (streams : List String) (number : Nat) :
    Outcome Unit × Socket × Wire :=
  if streams.isEmpty then (.ok (), s, w)
  else s.send w (.text (controlText verb streams number))

end Socket
end OrderDesk
