import Crosswalk.Filter.Chain
import Crosswalk.Filter.Core
import Crosswalk.Filter.Library

/-!
# Evaluating filter chains

The steps of a chain run from left to right, each on the datum of the one before. A step that
names no filter reads the variable of that name, or keeps the datum when there is none.

* `applyStep`: one step.
* `evaluate`: a whole chain, from the empty text to the first text of the last datum.
-/

namespace Crosswalk.Filter

open Text

def filters [Host] : List (Text × Filter) := coreFilters ++ libraryFilters

def find? [Host] (name : Text) : Option Filter := filters.lookup name

def isFilter [Host] (name : Text) : Bool := (find? name).isSome

def applyFilter (f : Filter) (v : Datum) (a : Arguments) : Except NotWhole Datum :=
  match f v a with
  | .ok w => .ok w
  | .error .keep => .ok v
  | .error (.notWhole e) => .error e

def applyStep [Host] (scope : Scope) (v : Datum) (step : Text) : Except NotWhole Datum :=
  let call := readCall step
  match find? call.1 with
  | some f => applyFilter f v ⟨call.2, scope⟩
  | none =>
    match Pairs.get? (trim step) scope.vars with
    | some s => .ok (.text s)
    | none => .ok v

/-- The data of the steps in order, up to one that fails. -/
def runSteps [Host] (scope : Scope) (v : Datum) (steps : List Text) : Except NotWhole Datum :=
  steps.foldlM (applyStep scope) v

def evaluate [Host] (scope : Scope) (chain : Text) : Except NotWhole Text :=
  (runSteps scope (.text []) (splitChain chain)).map Datum.first

/-- Each step with the datum after it; a step that fails is the last one. -/
def trace [Host] (scope : Scope) (v : Datum) : List Text → List (Text × Except NotWhole Datum)
  | [] => []
  | step :: steps =>
    match applyStep scope v step with
    | .ok w => (step, .ok w) :: trace scope w steps
    | .error e => [(step, .error e)]

end Crosswalk.Filter
