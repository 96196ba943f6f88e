import OrderDesk.Fault

/-!
# Frames

What travels over a socket.  Data frames carry text, as such or as bytes; the others keep the
connection alive or end it.
-/

namespace OrderDesk

/-- A frame. -/
inductive Frame where
  | text (s : String)
  | binary (bytes : List UInt8)
  | ping (bytes : List UInt8)
  | pong (bytes : List UInt8)
  | close
deriving DecidableEq, Repr

namespace Frame

/-- The text of some bytes, if they are well-formed UTF-8. -/
def textOfBytes? (bytes : List UInt8) : Option String := String.fromUTF8? ⟨bytes.toArray⟩

/-- The text of a data frame; nothing for the others. -/
def dataText : Frame → Outcome (Option String)
  | text s => .ok (some s)
  | binary bytes =>
    match textOfBytes? bytes with
    | some s => .ok (some s)
    | none => .error (.decoding "Invalid UTF-8 in binary message: not well-formed")
  | ping _ | pong _ | close => .ok none

end Frame
end OrderDesk
