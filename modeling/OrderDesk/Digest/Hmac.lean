import OrderDesk.Digest.Sha256

/-!
# Keyed hashes

HMAC over SHA-256: the key, filled up with zeros to one block (or hashed first if it is longer),
enters two hashes, one inside the other, under two different masks.
-/

namespace OrderDesk.Digest

/-- The key as one block of sixty-four bytes. -/
def keyBlock (key : List UInt8) : List UInt8 :=
  let short := if key.length > 64 then sha256 key else key
  short ++ List.replicate (64 - short.length) 0

def hmac (key message : List UInt8) : List UInt8 :=
  let block := keyBlock key
  sha256 (block.map (· ^^^ 0x5c) ++ sha256 (block.map (· ^^^ 0x36) ++ message))

def hmacHex (key message : String) : String := hex (hmac key.toUTF8.toList message.toUTF8.toList)

end OrderDesk.Digest
