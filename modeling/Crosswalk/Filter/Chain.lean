import Crosswalk.Text.Blank
import Crosswalk.Text.Quote
import Crosswalk.Text.Word

/-!
# Filter chains

A chain is a list of steps joined with `|`. A bar inside quotes, parentheses or braces joins
nothing.

* `splitChain s`: the trimmed steps of a chain, without blank ones.
* `readCall s`: the name of a step and the text of its arguments.
-/

namespace Crosswalk.Filter

open Text

/-- Where a scan stands: the open quote mark, and the count of open brackets. -/
structure Depth where
  quote : Option Char
  count : Nat
  deriving DecidableEq

namespace Depth

def outside : Depth := ⟨none, 0⟩

def isOpening (c : Char) : Bool := c == '(' || c == '{'

def isClosing (c : Char) : Bool := c == ')' || c == '}'

def step (d : Depth) (c : Char) : Depth :=
  if d.quote.isSome || isQuoteMark c then { d with quote := Quote.step d.quote c }
  else if isOpening c then { d with count := d.count + 1 }
  else if isClosing c then { d with count := d.count - 1 }
  else d

end Depth

/-- The parts between the bars that stand outside, where the scan starts at `d`. -/
def cutBars (d : Depth) : Text → List Text
  | [] => [[]]
  | c :: s =>
    if d = .outside ∧ c = '|' then [] :: cutBars d s
    else
      match cutBars (d.step c) s with
      | [] => [[c]]
      | part :: parts => (c :: part) :: parts

def splitChain (s : Text) : List Text :=
  ((cutBars .outside s).map trim).filter (· != [])

/-- A name and a text between parentheses that ends the step. -/
def readCall? (s : Text) : Option (Text × Text) :=
  let t := trim s
  let name := t.takeWhile isAsciiWord
  match trimStart (t.dropWhile isAsciiWord) with
  | '(' :: rest =>
    if name ≠ [] ∧ rest.getLast? = some ')' then some (name, trim rest.dropLast) else none
  | _ => none

/-- A step that is no call is a name without arguments. -/
def readCall (s : Text) : Text × Text := (readCall? s).getD (trim s, [])

example : splitChain "value | split('|') | last" = [("value" : Text), "split('|')", "last"] := by
  decide

end Crosswalk.Filter
