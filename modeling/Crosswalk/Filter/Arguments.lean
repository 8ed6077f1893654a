import Crosswalk.Filter.Datum
import Crosswalk.Pairs
import Crosswalk.Template.Placeholder
import Crosswalk.Text.Quote
import Crosswalk.Text.Scan

/-!
# Arguments of a filter

The text between the parentheses of a call is a list of tokens: a quoted text, a number, a name or
a variable reference. Between two tokens a comma and blanks may stand; what is no token is skipped.

* `tokens s`: the tokens as they are written.
* `Arguments.value`: what a token stands for.
* `asList`, `asKeys`, `asPairs`: the values in order, under given names, and as pairs.
-/

namespace Crosswalk.Filter

open Text

/-- The names that a template may use, and the tables of its mapping. -/
structure Scope where
  vars : Pairs Text Text
  tables : Pairs Text (Pairs Text Text)

structure Arguments where
  text : Text
  scope : Scope

/-! ## Tokens -/

/-- A text between two equal quote marks. -/
def quotedLength? : Text → Option Nat
  | q :: s =>
    if isQuoteMark q then (cutChar? q s).map fun p => p.1.length + 2 else none
  | [] => none

/-- Digits with at most one point, which needs a digit after it. -/
def digitsLength? (s : Text) : Option Nat :=
  let whole := s.takeWhile isDecimal
  match s.drop whole.length with
  | '.' :: t =>
    let part := t.takeWhile isDecimal
    if part ≠ [] then some (whole.length + 1 + part.length)
    else if whole ≠ [] then some whole.length else none
  | _ => if whole ≠ [] then some whole.length else none

def numberLength? : Text → Option Nat
  | c :: s => if c = '+' ∨ c = '-' then (digitsLength? s).map (· + 1) else digitsLength? (c :: s)
  | [] => none

def isNamePart (c : Char) : Bool := isWord c || c == ':' || c == '.' || c == '-'

def nameLength? : Text → Option Nat
  | c :: s => if isNameStart c then some (1 + (s.takeWhile isNamePart).length) else none
  | [] => none

def tokenLength? (s : Text) : Option Nat :=
  [Template.referenceLength?, quotedLength?, numberLength?, nameLength?].findSome? fun f => f s

/-- A token, with the blanks around it and a comma after it. -/
def tokenForm : Form Text := fun s =>
  let t := trimStart s
  (tokenLength? t).map fun n =>
    let rest := trimStart (t.drop n)
    let rest := match rest with | ',' :: u => trimStart u | u => u
    (t.take n, s.length - rest.length)

def tokens (s : Text) : List Text := readings tokenForm s

/-! ## Values -/

namespace Arguments

/-- A reference stands for a variable, empty when unknown; so does a token that is the name of a
variable; a quoted token stands for its text and any other one for itself. -/
def value (scope : Scope) (token : Text) : Text :=
  match after? ['{', '{'] token with
  | some _ => (Pairs.get? (trim ((token.drop 2).dropLast.dropLast)) scope.vars).getD []
  | none =>
    match Pairs.get? token scope.vars with
    | some s => s
    | none => if (token.head?.any isQuoteMark) then unquote token else token

def asList (a : Arguments) : List Text := (tokens a.text).map (value a.scope)

/-- The value at a position, if there is one. -/
def at? (a : Arguments) (i : Nat) : Option Text := a.asList[i]?

/-- The values under the names, in order, empty where there are too few. -/
def asKeys (a : Arguments) (keys : List Text) : Pairs Text Text :=
  let values := a.asList
  Pairs.ofList (keys.zip (values.take keys.length ++
    List.replicate (keys.length - values.length) []))

/-- A key is a number as it is written or a text without its quotes. -/
def key (token : Text) : Text := if isNumeric token then token else unquote token

def pairsOf (scope : Scope) : List Text → List (Text × Text)
  | k :: v :: more => (key k, value scope v) :: pairsOf scope more
  | _ => []

/-- The values by pairs, a key and what it stands for. -/
def asPairs (a : Arguments) : Pairs Text Text := Pairs.ofList (pairsOf a.scope (tokens a.text))

end Arguments

example : tokens "'a, b', x  -1.5" = [("'a, b'" : Text), "x", "-1.5"] := by decide

end Crosswalk.Filter
