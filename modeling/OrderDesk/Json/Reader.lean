import OrderDesk.Json.Basic
import OrderDesk.Power

/-!
# Reading JSON text

The grammar is the standard one: no leading zeros, no trailing commas, no comments, four kinds of
blank.  A failure carries how many characters were left, from which the line and the column of the
message follow.

Whole numbers that fit 64 bits stay whole; the others are floats, and so is minus zero.  The
digits of a float are taken while they fit an unsigned 64-bit word; later digits before the point
only move the exponent, later digits after it are ignored.
-/

namespace OrderDesk.Json

open OrderDesk.Text

/-- How many characters were left when reading failed. -/
abbrev Failure := Nat

/-- What was read and the rest of the text. -/
abbrev Reading (α : Type) := Except Failure (α × List Char)

/-- The largest exponent that is counted. -/
def maxExponent : Nat := 2147483647

/-- True for the four blanks of JSON. -/
def isBlank (c : Char) : Bool := c == ' ' || c == '\n' || c == '\t' || c == '\r'

/-- Drops leading blanks. -/
def skipBlanks (cs : List Char) : List Char := cs.dropWhile isBlank

/-! ## 1. Numbers -/

/-- A number on its way: the digits that fit a word and the power of ten they carry. -/
structure Digits where
  negative : Bool
  word : Nat
  exponent : Int

/-- A float, or a leaf that cannot be read if it is too large. -/
def floatLeaf (d : Digits) : Json :=
  match Binary64.ofParts d.negative d.word d.exponent with
  | some x => .number (.float x)
  | none => .unreadable

/-- A number without point and exponent. -/
def wholeLeaf (negative : Bool) (word : Nat) : Json :=
  if negative then
    if word = 0 ∨ word > Word.bound63 then floatLeaf ⟨true, word, 0⟩ else ofInt (-(word : Int))
  else ofNat word

def skipDigits (cs : List Char) : List Char := cs.dropWhile fun c => (digit? c).isSome

/-- Reads the digits of an exponent onto `value`; `none` once it is beyond all bounds. -/
def readExponentDigits : (value : Option Nat) → List Char → Option Nat × List Char
  | value, [] => (value, [])
  | value, c :: rest =>
    match digit? c with
    | some d =>
      let next := value.bind fun v => if v * 10 + d > maxExponent then none else some (v * 10 + d)
      readExponentDigits next rest
    | none => (value, c :: rest)

/-- Reads what follows an exponent mark. -/
def readExponent (d : Digits) (cs : List Char) : Reading Json :=
  let (down, cs) := match cs with
    | '+' :: rest => (false, rest)
    | '-' :: rest => (true, rest)
    | cs => (false, cs)
  match cs with
  | [] => .error 0
  | c :: rest =>
    match digit? c with
    | none => .error (rest.length + 1)
    | some first =>
      match readExponentDigits (some first) rest with
      | (some e, rest) =>
        let e : Int := if down then -(e : Int) else e
        .ok (floatLeaf { d with exponent := d.exponent + e }, rest)
      | (none, rest) =>
        if d.word ≠ 0 ∧ !down then .ok (.unreadable, rest)
        else .ok (floatLeaf ⟨d.negative, 0, 0⟩, rest)

/-- Reads an exponent if there is one. -/
def readExponent? (d : Digits) : List Char → Reading Json
  | 'e' :: rest => readExponent d rest
  | 'E' :: rest => readExponent d rest
  | cs => .ok (floatLeaf d, cs)

/-- Takes digits after the point while they fit. -/
def takeFraction (d : Digits) : List Char → Digits × List Char
  | [] => (d, [])
  | c :: rest =>
    match digit? c with
    | some n =>
      if d.word * 10 + n ≥ Word.bound64 then (d, skipDigits (c :: rest))
      else takeFraction { d with word := d.word * 10 + n, exponent := d.exponent - 1 } rest
    | none => (d, c :: rest)

/-- Reads what follows the point. -/
def readFraction (d : Digits) (cs : List Char) : Reading Json :=
  match cs with
  | [] => .error 0
  | c :: _ =>
    if (digit? c).isNone then .error cs.length
    else
      let (d, rest) := takeFraction d cs
      readExponent? d rest

/-- Counts the digits that no longer fit the word. -/
def takeExcess (d : Digits) : List Char → Digits × List Char
  | [] => (d, [])
  | c :: rest =>
    if (digit? c).isSome then takeExcess { d with exponent := d.exponent + 1 } rest
    else (d, c :: rest)

/-- Reads the digits before the point onto `word`, and what follows them. -/
def readWhole (negative : Bool) : (word : Nat) → List Char → Reading Json
  | word, [] => .ok (wholeLeaf negative word, [])
  | word, c :: rest =>
    match digit? c with
    | some d =>
      if word * 10 + d ≥ Word.bound64 then
        match takeExcess ⟨negative, word, 0⟩ (c :: rest) with
        | (d, '.' :: rest) => readFraction d rest
        | (d, rest) => readExponent? d rest
      else readWhole negative (word * 10 + d) rest
    | none =>
      if c = '.' then readFraction ⟨negative, word, 0⟩ rest
      else if c = 'e' ∨ c = 'E' then readExponent ⟨negative, word, 0⟩ rest
      else .ok (wholeLeaf negative word, c :: rest)

/-- Reads a number without its sign. -/
def readUnsigned (negative : Bool) : List Char → Reading Json
  | [] => .error 0
  | '0' :: c :: rest =>
    if (digit? c).isSome then .error (rest.length + 1) else readWhole negative 0 (c :: rest)
  | c :: rest =>
    match digit? c with
    | some d => readWhole negative d rest
    | none => .error (rest.length + 1)

/-! ## 2. Strings -/

/-- Reads four hexadecimal digits. -/
def readHex4 : List Char → Option (Nat × List Char)
  | a :: b :: c :: d :: rest =>
    match hexDigit? a, hexDigit? b, hexDigit? c, hexDigit? d with
    | some a, some b, some c, some d => some (((a * 16 + b) * 16 + c) * 16 + d, rest)
    | _, _, _, _ => none
  | _ => none

/-- The character that follows a backslash, for the escapes of one letter. -/
def simpleEscape? : Char → Option Char
  | '"' => some '"'
  | '\\' => some '\\'
  | '/' => some '/'
  | 'b' => some (Char.ofNat 8)
  | 'f' => some (Char.ofNat 12)
  | 'n' => some '\n'
  | 'r' => some '\r'
  | 't' => some '\t'
  | _ => none

/-- A character, or `none` for half of a surrogate pair, and the rest. -/
def readUnicodeEscape (cs : List Char) : Except Failure (Option Char × List Char) :=
  match readHex4 cs with
  | none => .error cs.length
  | some (n, rest) =>
    if 0xD800 ≤ n ∧ n ≤ 0xDBFF then
      match rest with
      | '\\' :: 'u' :: low =>
        match readHex4 low with
        | some (m, rest') =>
          if 0xDC00 ≤ m ∧ m ≤ 0xDFFF then
            .ok (some (Char.ofNat (0x10000 + (n - 0xD800) * 0x400 + (m - 0xDC00))), rest')
          else .ok (none, rest)
        | none => .error low.length
      | rest => .ok (none, rest)
    else if 0xDC00 ≤ n ∧ n ≤ 0xDFFF then .ok (none, rest)
    else .ok (some (Char.ofNat n), rest)

/-- Reads a string after its opening quote.  `acc` holds the characters so far, last first, and
is `none` once one of them denoted nothing. -/
def readString : (fuel : Nat) → (acc : Option (List Char)) → List Char → Reading (Option String)
  | 0, _, cs => .error cs.length
  | _, _, [] => .error 0
  | fuel + 1, acc, c :: rest =>
    if c = '"' then .ok (acc.map fun a => String.ofList a.reverse, rest)
    else if c = '\\' then
      match rest with
      | [] => .error 0
      | 'u' :: rest =>
        match readUnicodeEscape rest with
        | .error e => .error e
        | .ok (some ch, rest) => readString fuel (acc.map (ch :: ·)) rest
        | .ok (none, rest) => readString fuel none rest
      | e :: rest' =>
        match simpleEscape? e with
        | some ch => readString fuel (acc.map (ch :: ·)) rest'
        | none => .error rest.length
    else if c.toNat < 32 then .error (rest.length + 1)
    else readString fuel (acc.map (c :: ·)) rest

/-! ## 3. Documents -/

/-- Drops an expected word. -/
def expectWord : List Char → List Char → Option (List Char)
  | [], cs => some cs
  | w :: ws, c :: cs => if w = c then expectWord ws cs else none
  | _ :: _, [] => none

/-- Reads one of the three words. -/
def readWord (word : String) (value : Json) (cs : List Char) : Reading Json :=
  match expectWord word.toList cs with
  | some rest => .ok (value, rest)
  | none => .error cs.length

/-- One more field, last first, as long as every name denotes something. -/
def withField (name : Option String) (v : Json) (acc : Option (List (String × Json))) :
    Option (List (String × Json)) :=
  match name, acc with
  | some name, some fields => some ((name, v) :: fields)
  | _, _ => none

/-- The object of these fields, last first; it cannot be read if one of the names cannot. -/
def objectOf : Option (List (String × Json)) → Json
  | some fields => .object fields.reverse
  | none => .unreadable

mutual

/-- Reads a document; each level and each item takes one unit of fuel. -/
def readValue : (fuel : Nat) → List Char → Reading Json
  | 0, cs => .error cs.length
  | fuel + 1, cs =>
    match skipBlanks cs with
    | [] => .error 0
    | '"' :: rest =>
      (readString (rest.length + 1) (some []) rest).map fun (s, rest) =>
        (match s with | some s => .string s | none => .unreadable, rest)
    | '[' :: rest =>
      match skipBlanks rest with
      | ']' :: rest => .ok (.array [], rest)
      | rest => readItems fuel [] rest
    | '\x7b' :: rest =>
      match skipBlanks rest with
      | '\x7d' :: rest => .ok (.object [], rest)
      | rest => readFields fuel (some []) rest
    | '-' :: rest => readUnsigned true rest
    | 'n' :: rest => readWord "null" .null ('n' :: rest)
    | 't' :: rest => readWord "true" (.bool true) ('t' :: rest)
    | 'f' :: rest => readWord "false" (.bool false) ('f' :: rest)
    | c :: rest => readUnsigned false (c :: rest)

/-- Reads the items of an array up to its closing bracket; `acc` holds those read, last first. -/
def readItems : (fuel : Nat) → (acc : List Json) → List Char → Reading Json
  | 0, _, cs => .error cs.length
  | fuel + 1, acc, cs =>
    match readValue fuel cs with
    | .error e => .error e
    | .ok (v, rest) =>
      match skipBlanks rest with
      | ',' :: rest => readItems fuel (v :: acc) rest
      | ']' :: rest => .ok (.array (v :: acc).reverse, rest)
      | rest => .error rest.length

/-- Reads the fields of an object up to its closing brace; `acc` holds those read, last first, and
is `none` once one of their names denoted nothing. -/
def readFields : (fuel : Nat) → (acc : Option (List (String × Json))) → List Char → Reading Json
  | 0, _, cs => .error cs.length
  | fuel + 1, acc, cs =>
    match skipBlanks cs with
    | '"' :: rest =>
      match readString (rest.length + 1) (some []) rest with
      | .error e => .error e
      | .ok (name, rest) =>
        match skipBlanks rest with
        | ':' :: rest =>
          match readValue fuel rest with
          | .error e => .error e
          | .ok (v, rest) =>
            let acc := withField name v acc
            match skipBlanks rest with
            | ',' :: rest => readFields fuel acc rest
            | '\x7d' :: rest => .ok (objectOf acc, rest)
            | rest => .error rest.length
        | rest => .error rest.length
    | rest => .error rest.length

end

/-! ## 4. Whole texts -/

/-- A place in a text, both counted from one. -/
structure Position where
  line : Nat
  column : Nat
deriving DecidableEq, Repr

/-- The place after these characters. -/
def positionAfter (cs : List Char) : Position :=
  cs.foldl (fun p c => if c = '\n' then ⟨p.line + 1, 0⟩ else ⟨p.line, p.column + 1⟩) ⟨1, 0⟩

/-- Where a text of this many characters with this many left is. -/
def positionAt (cs : List Char) (left : Nat) : Position :=
  positionAfter (cs.take (cs.length - left))

/-- Reads a document that is the whole text. -/
def read (s : String) : Except Position Json :=
  let cs := s.toList
  match readValue (cs.length + 1) cs with
  | .error left => .error (positionAt cs left)
  | .ok (j, rest) =>
    match skipBlanks rest with
    | [] => .ok j
    | rest => .error (positionAt cs rest.length)

/-- Reads a text and takes its value. -/
def readSettled (s : String) : Except Position Json :=
  match read s with
  | .error e => .error e
  | .ok j =>
    match j.settle 0 with
    | some v => .ok v
    | none => .error (positionAt s.toList 0)

end OrderDesk.Json
