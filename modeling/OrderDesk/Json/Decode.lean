import OrderDesk.Json.Printer
import OrderDesk.Json.Reader
import OrderDesk.Power

/-!
# Typed reading of documents

A decoder turns a document into a value of some type or says what is in the way.  This module has
the decoders of the leaves and the two shapes that everything else is built from.

* A *record* is an object, of which unknown fields are ignored and known ones may stand only once,
  or an array of its fields in order.  `RecordReader` takes one field after another off either.
* A *variant* is the name of an alternative as a string, or an object with one field whose name is
  the alternative and whose value is its content.

A field that may be missing says so: `optional` reads a missing or null field as nothing (an array
has to be long enough, though), `defaulted` replaces a missing field in either shape.
-/

namespace OrderDesk

/-- What keeps a document from denoting a value of the wanted type. -/
inductive Mismatch where
  | expected (what : String)
  | missing (field : String)
  | repeated (field : String)
  | tooManyItems
  | unknownVariant
deriving DecidableEq, Repr

namespace Mismatch

/-- The wording. -/
def message : Mismatch → String
  | expected what => "expected " ++ what
  | missing field => "missing field " ++ Json.quote field
  | repeated field => "duplicate field " ++ Json.quote field
  | tooManyItems => "too many items"
  | unknownVariant => "unknown variant"

end Mismatch

/-- A value or a mismatch. -/
abbrev Decoded (α : Type) := Except Mismatch α

namespace Json

/-! ## 1. Leaves -/

def decodeString : Json → Decoded String
  | string s => .ok s
  | _ => .error (.expected "a string")

def decodeBool : Json → Decoded Bool
  | bool b => .ok b
  | _ => .error (.expected "a boolean")

/-- A whole number between two bounds, both included. -/
def decodeWhole (lo hi : Int) : Json → Decoded Int
  | number (.whole n) =>
    if lo ≤ n ∧ n ≤ hi then .ok n else .error (.expected "a whole number in range")
  | _ => .error (.expected "a whole number")

def decodeInt64 : Json → Decoded Int := decodeWhole (-(Word.bound63 : Int)) (Word.bound63 - 1)

def decodeWord64 (j : Json) : Decoded Nat := (decodeWhole 0 (Word.bound64 - 1) j).map Int.toNat

def decodeWord32 (j : Json) : Decoded Nat := (decodeWhole 0 (Word.bound32 - 1) j).map Int.toNat

/-- Null as nothing, anything else through `decode`. -/
def decodeOption {α : Type} (decode : Json → Decoded α) : Json → Decoded (Option α)
  | null => .ok none
  | j => (decode j).map some

/-- Decodes the items of a list in order. -/
def decodeItems {α : Type} (decode : Json → Decoded α) : List Json → Decoded (List α)
  | [] => .ok []
  | j :: rest =>
    match decode j with
    | .error e => .error e
    | .ok v => (decodeItems decode rest).map (v :: ·)

def decodeList {α : Type} (decode : Json → Decoded α) : Json → Decoded (List α)
  | array items => decodeItems decode items
  | _ => .error (.expected "an array")

/-! ## 2. Records -/

/-- What is left of a record: the fields of an object or the items of an array. -/
inductive Record where
  | fields (fs : List (String × Json))
  | items (js : List Json)
deriving Repr

/-- Reads some fields of a record. -/
abbrev RecordReader (α : Type) := Record → Decoded (α × Record)

/-- Takes a field that may have several names off a record, or the next item. -/
def Record.take (names : List String) : Record → Decoded (Option Json × Record)
  | .items [] => .ok (none, .items [])
  | .items (j :: rest) => .ok (some j, .items rest)
  | .fields fs =>
    match fs.filter fun f => names.contains f.1 with
    | [] => .ok (none, .fields fs)
    | [f] => .ok (some f.2, .fields fs)
    | f :: _ => .error (.repeated f.1)

/-- A field that is always there. -/
def required {α : Type} (name : String) (decode : Json → Decoded α) : RecordReader α := fun r =>
  match r.take [name] with
  | .error e => .error e
  | .ok (some j, r) => (decode j).map (·, r)
  | .ok (none, _) => .error (.missing name)

/-- A field that an object may lack; null counts as missing. -/
def optional {α : Type} (name : String) (decode : Json → Decoded α) : RecordReader (Option α) :=
  fun r =>
    match r.take [name] with
    | .error e => .error e
    | .ok (some j, r) => (decodeOption decode j).map (·, r)
    | .ok (none, .fields fs) => .ok (none, .fields fs)
    | .ok (none, .items _) => .error (.missing name)

/-- A field that is `value` where it is missing, under any of these names. -/
def defaultedOf {α : Type} (names : List String) (value : α) (decode : Json → Decoded α) :
    RecordReader α := fun r =>
  match r.take names with
  | .error e => .error e
  | .ok (some j, r) => (decode j).map (·, r)
  | .ok (none, r) => .ok (value, r)

/-- A field that is `value` where it is missing. -/
def defaulted {α : Type} (name : String) (value : α) (decode : Json → Decoded α) :
    RecordReader α := defaultedOf [name] value decode

/-- A field that is `value` where it is missing, under either of two names. -/
def defaultedAs {α : Type} (name other : String) (value : α) (decode : Json → Decoded α) :
    RecordReader α := defaultedOf [name, other] value decode

/-- A reader that reads nothing. -/
protected def RecordReader.pure {α : Type} (a : α) : RecordReader α := fun r => .ok (a, r)

/-- One reader after another. -/
protected def RecordReader.bind {α β : Type} (x : RecordReader α) (f : α → RecordReader β) :
    RecordReader β := fun r =>
  match x r with
  | .error e => .error e
  | .ok (a, r) => f a r

instance : Monad RecordReader where
  pure := RecordReader.pure
  bind := RecordReader.bind

/-- A record in either shape. -/
def decodeRecord {α : Type} (reader : RecordReader α) : Json → Decoded α
  | object fs => (reader (.fields fs)).map (·.1)
  | array js =>
    match reader (.items js) with
    | .error e => .error e
    | .ok (a, .items []) => .ok a
    | .ok _ => .error .tooManyItems
  | _ => .error (.expected "a record")

/-! ## 3. Variants -/

/-- The name of an alternative and its content, if it has one. -/
def decodeVariant : Json → Decoded (String × Option Json)
  | string name => .ok (name, none)
  | object [(name, content)] => .ok (name, some content)
  | _ => .error (.expected "the name of an alternative")

/-- An alternative without content, among those of a table. -/
def decodeName {α : Type} (table : List (String × α)) (j : Json) : Decoded α :=
  match decodeVariant j with
  | .error e => .error e
  | .ok (name, content) =>
    if content.all isNull then
      match table.lookup name with
      | some a => .ok a
      | none => .error .unknownVariant
    else .error (.expected "an alternative without content")

/-- The content of an alternative that must have one. -/
def content (c : Option Json) : Decoded Json :=
  match c with
  | some j => .ok j
  | none => .error (.expected "an alternative with content")

/-! ## 4. From text -/

/-- Why a text does not denote a value: it is no document (with the place), or a document of
another type. -/
inductive TextFault where
  | malformed (place : Position)
  | mismatch (cause : Mismatch) (place : Position)
deriving DecidableEq, Repr

def Position.text (p : Position) : String :=
  "at line " ++ Text.ofNat p.line ++ " column " ++ Text.ofNat p.column

def TextFault.message : TextFault → String
  | .malformed p => "malformed document " ++ p.text
  | .mismatch m p => m.message ++ " " ++ p.text

/-- Where a text ends. -/
def endOf (s : String) : Position := positionAt s.toList 0

/-- Reads a text as a value of a type. -/
def decodeText {α : Type} (decode : Json → Decoded α) (s : String) : Except TextFault α :=
  match read s with
  | .error p => .error (.malformed p)
  | .ok j =>
    match decode j with
    | .ok a => .ok a
    | .error m => .error (.mismatch m (endOf s))

/-- A document nested `outer` levels deep in a text, as an untyped value. -/
def decodeUntyped (outer : Nat) (j : Json) : Decoded Json :=
  match j.settle outer with
  | some v => .ok v
  | none => .error (.expected "a readable value")

end Json
end OrderDesk
