import OrderDesk.Binary64

/-!
# JSON documents

A document as it stands in a text: numbers are whole (64 bits, signed or not) or binary64, objects
keep their fields in order and may repeat a name.  `unreadable` marks what is well formed but
denotes nothing (a number beyond the largest float, half of a surrogate pair, an object with such
a name): whoever skips it does not notice, whoever reads it fails.

`settle` is the value that a document denotes: fields sorted by name, the last one of each name.
It exists unless something in the document is unreadable or nested too deeply.
-/

namespace OrderDesk

/-- A JSON number. -/
inductive JsonNumber where
  | whole (n : Int)
  | float (x : Binary64)
deriving DecidableEq, Repr

/-- A JSON document. -/
inductive Json where
  | null
  | bool (b : Bool)
  | number (n : JsonNumber)
  | string (s : String)
  | array (items : List Json)
  | object (fields : List (String × Json))
  | unreadable
deriving Repr

namespace Json

instance : Inhabited Json := ⟨null⟩

def ofInt (n : Int) : Json := .number (.whole n)

def ofNat (n : Nat) : Json := .number (.whole n)

/-- The value of a field of an object, the first of its name. -/
def get? (name : String) : Json → Option Json
  | object fields => fields.lookup name
  | _ => none

def asString? : Json → Option String
  | string s => some s
  | _ => none

def isNull : Json → Bool
  | null => true
  | _ => false

/-- Names with a text, null without. -/
def ofOption (s : Option Json) : Json := s.getD null

/-! ## The value of a document -/

/-- Puts a field into a sorted list of fields; an earlier field of that name is replaced. -/
def insertField (name : String) (value : Json) : List (String × Json) → List (String × Json)
  | [] => [(name, value)]
  | (n, v) :: rest =>
    if name < n then (name, value) :: (n, v) :: rest
    else if name = n then (name, value) :: rest
    else (n, v) :: insertField name value rest

/-- Sorts fields by name and keeps the last of each name. -/
def sortFields (fields : List (String × Json)) : List (String × Json) :=
  fields.foldl (fun acc (n, v) => insertField n v acc) []

/-- The greatest nesting depth that is read. -/
def maxDepth : Nat := 127

mutual

/-- The value of a document that may open `room` more levels. -/
def settleIn : (room : Nat) → Json → Option Json
  | _, null => some null
  | _, bool b => some (bool b)
  | _, number n => some (number n)
  | _, string s => some (string s)
  | _, unreadable => none
  | 0, array _ => none
  | 0, object _ => none
  | room + 1, array items => (settleItems room items).map array
  | room + 1, object fields => (settleFields room fields).map fun fs => object (sortFields fs)

/-- The values of the items of an array. -/
def settleItems : (room : Nat) → List Json → Option (List Json)
  | _, [] => some []
  | room, j :: rest =>
    (settleIn room j).bind fun v => (settleItems room rest).map (v :: ·)

/-- The values of the fields of an object. -/
def settleFields : (room : Nat) → List (String × Json) → Option (List (String × Json))
  | _, [] => some []
  | room, (n, j) :: rest =>
    (settleIn room j).bind fun v => (settleFields room rest).map ((n, v) :: ·)

end

/-- The value of a document that stands `outer` levels deep. -/
def settle (outer : Nat) (j : Json) : Option Json := settleIn (maxDepth - outer) j

end Json
end OrderDesk
