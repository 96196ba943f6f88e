/-!
# Searching in texts
-/

namespace OrderDesk.Text

/-- The first place of some characters among others: what comes before, and all from there on.
`before` are the characters that were passed, in reverse. -/
def findFrom (part : List Char) :
    (before : List Char) → List Char → Option (List Char × List Char)
  | before, [] => if part.isEmpty then some (before.reverse, []) else none
  | before, c :: rest =>
    if part.isPrefixOf (c :: rest) then some (before.reverse, c :: rest)
    else findFrom part (c :: before) rest

/-- A text before and after the first place of a part of it. -/
def splitAt? (s part : String) : Option (String × String) :=
  (findFrom part.toList [] s.toList).map fun (before, rest) =>
    (String.ofList before, String.ofList (rest.drop part.length))

def occursIn (part s : String) : Bool := (splitAt? s part).isSome

/-- What follows the last place of a character, or the whole text. -/
def afterLast (c : Char) (s : String) : String :=
  String.ofList (s.toList.reverse.takeWhile (· != c)).reverse

end OrderDesk.Text
