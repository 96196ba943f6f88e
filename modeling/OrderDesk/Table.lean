/-!
# Tables

Finite maps, as lists of pairs of which the first of a key counts.  `put` replaces the value of a
key where it stands and appends a new one, so that a table that was built by `put` and `erase`
has every key once, in the order of arrival.
-/

namespace OrderDesk

/-- A finite map. -/
structure Table (α β : Type) where
  entries : List (α × β)
deriving DecidableEq, Repr

namespace Table

variable {α β : Type} [DecidableEq α]

def empty : Table α β := ⟨[]⟩

instance : Inhabited (Table α β) := ⟨empty⟩

def get? (t : Table α β) (k : α) : Option β := (t.entries.find? fun e => e.1 = k).map (·.2)

def contains (t : Table α β) (k : α) : Bool := t.entries.any fun e => e.1 = k

def keys (t : Table α β) : List α := t.entries.map (·.1)

def size (t : Table α β) : Nat := t.entries.length

/-- Puts a value where the key stands, or at the end. -/
def putIn (k : α) (v : β) : List (α × β) → List (α × β)
  | [] => [(k, v)]
  | e :: rest => if e.1 = k then (k, v) :: rest else e :: putIn k v rest

def put (t : Table α β) (k : α) (v : β) : Table α β := ⟨putIn k v t.entries⟩

def erase (t : Table α β) (k : α) : Table α β := ⟨t.entries.filter fun e => e.1 ≠ k⟩

/-- Gives values to keys, one after another. -/
def ofList (es : List (α × β)) : Table α β := es.foldl (fun t e => t.put e.1 e.2) empty

end Table
end OrderDesk
