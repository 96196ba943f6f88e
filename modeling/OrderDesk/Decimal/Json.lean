import OrderDesk.Decimal.Text
import OrderDesk.Json.Decode

/-!
# Amounts in documents

Amounts are written as strings, so that no reader rounds them.  The library's own records read
them from strings and from numbers; the exchange's records insist on strings, and some of them
leave an amount out by an empty string or null.
-/

namespace OrderDesk.Decimal

def toJson (d : Decimal) : Json := .string d.toText

def decodeText (s : String) : Decoded Decimal :=
  match ofText? s with
  | some d => .ok d
  | none => .error (.expected "an amount")

/-- Reads an amount from a string or a number. -/
def ofJson : Json → Decoded Decimal
  | .string s => decodeText s
  | .number (.whole n) => decodeText (Text.ofInt n)
  | .number (.float x) => decodeText x.toPlainText
  | _ => .error (.expected "an amount")

/-- Reads an amount from a string only. -/
def ofJsonString : Json → Decoded Decimal
  | .string s => decodeText s
  | _ => .error (.expected "an amount in quotes")

/-- Reads an amount from a string; null and the empty string leave it out. -/
def ofJsonString? : Json → Decoded (Option Decimal)
  | .null => .ok none
  | .string s => if s.isEmpty then .ok none else (decodeText s).map some
  | _ => .error (.expected "an amount in quotes")

end OrderDesk.Decimal
