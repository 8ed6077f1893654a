import Crosswalk.Proofs.Filter.Arguments
import Crosswalk.Proofs.Number.Digits

/-!
# Calls of filters

`Calls scope step name values` says that a step calls the filter `name` with arguments that stand
for `values`. Such a step does what the filter does with them:

    applyStep scope v step = applyFilter f v ⟨(readCall step).2, scope⟩            (Calls.applyStep)

Arguments between quotes stand for their texts (`calls_callText`), so there is a call for all values
that lack one of the two quotes; a number is written as its digits (`wholeOf_intText`).
-/

namespace Crosswalk.Filter

open Text

/-- A step calls a filter with arguments that stand for the values. -/
structure Calls (scope : Scope) (step name : Text) (values : List Text) : Prop where
  name_eq : (readCall step).1 = name
  asList_eq : Arguments.asList ⟨(readCall step).2, scope⟩ = values

variable {scope : Scope} {step name : Text} {values : List Text}

theorem Calls.at? (h : Calls scope step name values) (i : Nat) :
    Arguments.at? ⟨(readCall step).2, scope⟩ i = values[i]? := by
  rw [Arguments.at?, h.asList_eq]

theorem Calls.applyStep [Host] {f : Filter} (h : Calls scope step name values)
    (hf : find? name = some f) (v : Datum) :
    applyStep scope v step = applyFilter f v ⟨(readCall step).2, scope⟩ := by
  unfold Filter.applyStep
  dsimp only
  rw [h.name_eq, hf]

theorem trim_readCall (step : Text) : trim (readCall step).2 = (readCall step).2 := by
  unfold readCall readCall?
  dsimp only
  split
  · split
    · exact (trimmed_trimOf isBlank _).trimOf_eq
    · rfl
  · rfl

theorem calls_callText (hne : name ≠ []) (hword : ∀ c ∈ name, isAsciiWord c = true)
    (hv : ∀ name ∈ Pairs.keys scope.vars, name.any isQuoteMark = false) (args : List Argument) :
    Calls scope (callText name (listText args)) name (args.map Argument.text) := by
  constructor
  · rw [readCall_callText hne hword]
  · rw [readCall_callText hne hword]
    exact Argument.asList_of_tokens hv (Argument.tokens_listText args).2

/-- A number of not too many digits is read back from its text. -/
theorem wholeOf_intText {n : Int} (h : (natText n.natAbs).length ≤ maxDigits) :
    wholeOf (intText n) = .ok n := by
  obtain ⟨hvalue, hcount⟩ := leadingInt_intText n
  rw [wholeOf, hvalue, hcount, if_pos h]

end Crosswalk.Filter
