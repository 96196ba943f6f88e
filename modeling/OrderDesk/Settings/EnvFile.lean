import OrderDesk.Text.Blank
import OrderDesk.Text.Letters
import OrderDesk.Fault

/-!
# The environment and its file

An environment gives texts to names.  A file adds to it, one `NAME=value` in a line: comments
start with `#`, the word `export` may stand in front, and a value is plain or quoted.

* In single quotes everything stands for itself.
* Elsewhere a backslash makes a quote, a backslash, a dollar sign or a blank literal, and `\n` is
  a new line.
* `$NAME` and `${NAME}` stand for the text of another name, or for nothing.  This also holds in
  double quotes, and a character that ends a plain `$NAME` is always literal.
* A plain value ends at its first blank, after which only a comment may follow.

The file never changes a name that has a text already, and the first line of a name wins.  A line
that cannot be read ends the reading; the lines before it stay in force.
-/

namespace OrderDesk

open OrderDesk.Text

/-- Names and their texts. -/
abbrev Environment := List (String × String)

namespace Environment

def get? (env : Environment) (name : String) : Option String := env.lookup name

/-- Gives a text to a name that has none. -/
def supply (env : Environment) (name text : String) : Environment :=
  if (env.get? name).isSome then env else env ++ [(name, text)]

/-! ## 1. Values -/

/-- Where the reading of a value stands. -/
inductive Mode where
  | plain
  | single
  | double
  | ended
  | escaped (inner : Mode)
  | name (inner : Mode)
  | braced (inner : Mode)
deriving DecidableEq, Repr

/-- A value on its way: its characters and those of a name to look up, both last first. -/
structure Partial where
  mode : Mode
  output : List Char
  name : List Char

/-- The text that a name stands for. -/
def expansion (env : Environment) (name : List Char) : List Char :=
  ((env.get? (String.ofList name.reverse)).getD "").toList

/-- Puts the text of the name that was read into the value. -/
def expand (env : Environment) (p : Partial) : List Char :=
  (expansion env p.name).reverse ++ p.output

/-- Reads one character of a value. -/
def step (env : Environment) (p : Partial) (c : Char) : Option Partial :=
  match p.mode with
  | .ended =>
    if c = ' ' ∨ c = '\t' then some p else none
  | .escaped inner =>
    if c = '\\' ∨ c = '\'' ∨ c = '"' ∨ c = '$' ∨ c = ' ' then
      some { p with mode := inner, output := c :: p.output }
    else if c = 'n' then some { p with mode := inner, output := '\n' :: p.output }
    else none
  | .single =>
    if c = '\'' then some { p with mode := .plain }
    else some { p with output := c :: p.output }
  | .name inner =>
    if isLetterOrNumeral c then some { p with name := c :: p.name }
    else if c = '\x7b' ∧ p.name.isEmpty then some { p with mode := .braced inner }
    else if c = '$' then some { p with output := expand env p, name := [] }
    else some ⟨inner, c :: expand env p, []⟩
  | .braced inner =>
    if c = '\x7d' then some ⟨inner, expand env p, []⟩
    else some { p with name := c :: p.name }
  | .double =>
    if c = '$' then some { p with mode := .name .double }
    else if c = '"' then some { p with mode := .plain }
    else if c = '\\' then some { p with mode := .escaped .double }
    else some { p with output := c :: p.output }
  | .plain =>
    if c = '$' then some { p with mode := .name .plain }
    else if c = '\'' then some { p with mode := .single }
    else if c = '"' then some { p with mode := .double }
    else if c = '\\' then some { p with mode := .escaped .plain }
    else if c = ' ' ∨ c = '\t' then some { p with mode := .ended }
    else some { p with output := c :: p.output }

/-- Whether a value may end here: no quote and no brace is open. -/
def mayEnd : Mode → Bool
  | .plain | .ended => true
  | .single | .double | .braced _ => false
  | .escaped inner | .name inner => mayEnd inner

/-- Reads a value to its end. -/
def readValue (env : Environment) (p : Partial) : List Char → Option String
  | [] =>
    if mayEnd p.mode then
      let output := match p.mode with
        | .name _ => expand env p
        | _ => p.output
      some (String.ofList output.reverse)
    else none
  | c :: rest =>
    if p.mode = .ended ∧ c = '#' then some (String.ofList p.output.reverse)
    else (step env p c).bind fun p => readValue env p rest

/-! ## 2. Lines -/

/-- A character that a name may begin with. -/
def startsName (c : Char) : Bool := c.isAlpha || c == '_'

/-- A character of a name. -/
def inName (c : Char) : Bool := c.isAlphanum || c == '_' || c == '.'

/-- Reads a name and the blanks after it. -/
def readName : List Char → Option (String × List Char)
  | [] => none
  | c :: rest =>
    if startsName c then
      some (String.ofList (c :: rest.takeWhile inName), trimStart (rest.dropWhile inName))
    else none

/-- Reads a name and the equals sign after it. -/
def readTarget (cs : List Char) : Option (String × List Char) :=
  match readName cs with
  | some (name, '=' :: rest) => some (name, rest)
  | some ("export", rest) =>
    match readName rest with
    | some (name, '=' :: rest) => some (name, rest)
    | _ => none
  | _ => none

/-- Reads a line: `none` if it cannot be read, `some none` if it says nothing. -/
def readLine (env : Environment) (line : List Char) : Option (Option (String × String)) :=
  match trimStart (trimEnd line) with
  | [] => some none
  | '#' :: _ => some none
  | cs =>
    (readTarget cs).bind fun (name, rest) =>
      match trimStart rest with
      | [] => some (some (name, ""))
      | '#' :: _ => some (some (name, ""))
      | value => (readValue env ⟨.plain, [], []⟩ value).map fun text => some (name, text)

/-! ## 3. Files -/

/-- Cuts a text into lines; the carriage return before a line feed belongs to it. -/
def lines : (current : List Char) → List Char → List (List Char)
  | current, [] => if current.isEmpty then [] else [current.reverse]
  | current, c :: rest =>
    if c = '\n' then
      (match current with
        | '\x0d' :: before => before.reverse
        | current => current.reverse) :: lines [] rest
    else lines (c :: current) rest

/-- Reads lines up to the first that cannot be read, and says which one that is. -/
def loadLines (env : Environment) : List (List Char) → Environment × Option String
  | [] => (env, none)
  | line :: rest =>
    match readLine env line with
    | none => (env, some (String.ofList line))
    | some none => loadLines env rest
    | some (some (name, text)) => loadLines (env.supply name text) rest

/-- Adds the content of a file. -/
def load (env : Environment) (path content : String) : Except SettingsFault Environment :=
  match loadLines env (lines [] content.toList) with
  | (env, none) => .ok env
  | (_, some line) =>
    .error (.invalid ("Failed to load .env file '" ++ path ++ "': cannot read line " ++ line))

end Environment
end OrderDesk
