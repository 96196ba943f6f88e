import OrderDesk.Text.LetterCase.Table

/-!
# Letter case

Capital and small letters of a whole text.  A letter may become several (`ß` becomes `SS`), and a
capital sigma becomes the final small one at the end of a word, which takes a look at both of its
sides.
-/

namespace OrderDesk.Text

/-- The shift of a character, if a run contains it. -/
def CaseRun.shift? (r : CaseRun) (n : Nat) : Option Int :=
  if r.first ≤ n ∧ n ≤ r.last ∧ (n - r.first) % r.step = 0 then some r.shift else none

/-- The other form of one character by these tables; a character that they do not list stays. -/
def mapCase (runs : List CaseRun) (strings : List (Nat × List Nat)) (c : Char) : List Char :=
  match strings.lookup c.toNat with
  | some ns => ns.map Char.ofNat
  | none =>
    match runs.findSome? fun r => r.shift? c.toNat with
    | some d => [Char.ofNat ((c.toNat : Int) + d).toNat]
    | none => [c]

/-- The capital form of one character. -/
def capitals (c : Char) : List Char :=
  if c.toNat < 128 then [c.toUpper] else mapCase capitalRuns capitalStrings c

/-- The small form of one character, apart from the rule of the final sigma. -/
def smalls (c : Char) : List Char :=
  if c.toNat < 128 then [c.toLower] else mapCase smallRuns smallStrings c

def upper (s : String) : String := String.ofList (s.toList.flatMap capitals)

/-- True if one of the ranges contains the character. -/
def inRanges (ranges : List (Nat × Nat)) (c : Char) : Bool :=
  ranges.any fun (first, last) => first ≤ c.toNat && c.toNat ≤ last

/-- Whether a letter with case comes next, past what does not separate letters. -/
def letterFollows (cs : List Char) : Bool :=
  match cs.dropWhile (inRanges caseIgnorable) with
  | c :: _ => inRanges cased c
  | [] => false

/-- The small form of a text; `before` holds what was read, last first. -/
def lowerFrom : (before : List Char) → List Char → List Char
  | _, [] => []
  | before, c :: rest =>
    if c = 'Σ' then
      (if letterFollows before && !letterFollows rest then 'ς' else 'σ') ::
        lowerFrom (c :: before) rest
    else smalls c ++ lowerFrom (c :: before) rest

def lower (s : String) : String := String.ofList (lowerFrom [] s.toList)

/-- An ASCII text in small letters; other letters stay. -/
def lowerAscii (s : String) : String := String.ofList (s.toList.map Char.toLower)

/-- Equality up to the case of ASCII letters. -/
def sameAscii (s t : String) : Bool :=
  s.toList.map Char.toUpper == t.toList.map Char.toUpper

end OrderDesk.Text
