import OrderDesk.Fault
import OrderDesk.Order.Request

/-!
# Requests and answers

A request is a verb, a path and parameters; those stand in the query or, for `POST`, in the body.
An answer is a status and a body.  Parameters are joined as they are, without any escaping: what
is signed are exactly the characters that are sent.
-/

namespace OrderDesk

/-- A request, relative to the address of the exchange. -/
structure HttpRequest where
  method : String
  path : String
  query : String
  body : Option String
  headers : List (String × String)
deriving DecidableEq, Repr

/-- An answer. -/
structure HttpResponse where
  status : Nat
  body : String
deriving DecidableEq, Repr

/-- Parameters as they are signed and sent. -/
def canonicalQuery (ps : Parameters) : String :=
  String.intercalate "&" (ps.map fun p => p.1 ++ "=" ++ p.2)

namespace HttpRequest

def plain (method path : String) : HttpRequest := ⟨method, path, "", none, []⟩

/-- Path and query, as they stand in the first line. -/
def target (r : HttpRequest) : String :=
  if r.query.isEmpty then r.path else r.path ++ "?" ++ r.query

/-- A character of a verb. -/
def inMethod (c : Char) : Bool :=
  c.isAlphanum || ['!', '#', '$', '%', '&', '\'', '*', '+', '-', '.', '^', '_', '\x60', '|',
    '~'].contains c

/-- A verb consists of such characters. -/
def isMethod (s : String) : Bool := !s.isEmpty && s.toList.all inMethod

end HttpRequest

namespace HttpResponse

/-- The request was carried out. -/
def isSuccess (r : HttpResponse) : Bool := 200 ≤ r.status && r.status < 300

/-- The exchange asks for patience. -/
def isThrottled (r : HttpResponse) : Bool := r.status == 429

end HttpResponse

/-! ## The network -/

/-- Drops slashes at the end. -/
def trimSlashes (url : String) : String :=
  String.ofList (url.toList.reverse.dropWhile (· == '/')).reverse

/-- A network: what comes back for a request that is sent to an address. -/
abbrev Network := (address : String) → HttpRequest → Except String HttpResponse

/-- A network that nothing answers on. -/
def unreachable : Network := fun address _ => .error ("cannot reach " ++ address)

def Network.send (n : Network) (base : String) (r : HttpRequest) : Outcome HttpResponse :=
  match n (trimSlashes base ++ r.target) r with
  | .ok answer => .ok answer
  | .error cause => .error (.network ("Request failed: " ++ cause))

end OrderDesk
