import OrderDesk.Json.Basic

/-!
# Compact JSON text

No blanks; fields in the order in which they stand.  Strings escape the quote, the backslash and
the control characters below the blank, and nothing else.
-/

namespace OrderDesk.Json

open OrderDesk.Text

/-- A character inside a string. -/
def escape (c : Char) : List Char :=
  match c with
  | '"' => ['\\', '"']
  | '\\' => ['\\', '\\']
  | '\n' => ['\\', 'n']
  | '\r' => ['\\', 'r']
  | '\t' => ['\\', 't']
  | c =>
    if c.toNat = 8 then ['\\', 'b']
    else if c.toNat = 12 then ['\\', 'f']
    else if c.toNat < 32 then
      ['\\', 'u', '0', '0', hexChar (c.toNat / 16), hexChar c.toNat]
    else [c]

def quote (s : String) : String :=
  String.ofList ('"' :: (s.toList.flatMap escape ++ ['"']))

def numberText : JsonNumber → String
  | .whole n => Text.ofInt n
  | .float x => x.toJsonText

mutual

/-- The text of a document. -/
def print : Json → String
  | null => "null"
  | bool true => "true"
  | bool false => "false"
  | number n => numberText n
  | string s => quote s
  | array items => "[" ++ printItems items ++ "]"
  | object fields => "\x7b" ++ printFields fields ++ "\x7d"
  | unreadable => "null"

/-- The items of an array, separated by commas. -/
def printItems : List Json → String
  | [] => ""
  | [j] => print j
  | j :: rest => print j ++ "," ++ printItems rest

/-- The fields of an object, separated by commas. -/
def printFields : List (String × Json) → String
  | [] => ""
  | [(n, j)] => quote n ++ ":" ++ print j
  | (n, j) :: rest => quote n ++ ":" ++ print j ++ "," ++ printFields rest

end

end OrderDesk.Json
