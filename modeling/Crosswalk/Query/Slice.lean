import Crosswalk.Text.Basic

/-!
# Slices

A slice takes the items of a list from one position to another one, by steps. Positions below zero
count from the end, and those outside of the list stand at its ends. With a step below zero the
slice goes backward.

* `Slice.take? s xs`: the items that the slice takes; nothing when its step is zero.
-/

namespace Crosswalk

structure Slice where
  start : Option Int
  stop : Option Int
  step : Option Int
  deriving DecidableEq

namespace Slice

def whole : Slice := ⟨none, none, none⟩

/-- A bound as a position between `low` and `high`. -/
def clamp (size low high bound : Int) : Int :=
  max low (min high (if bound < 0 then bound + size else bound))

/-- The positions from `i` on, before `stop` when the step goes up and after it when it goes
down. -/
def positions (step stop : Int) : Nat → Int → List Int
  | 0, _ => []
  | n + 1, i =>
    if (0 < step ∧ i < stop) ∨ (step < 0 ∧ stop < i) then i :: positions step stop n (i + step)
    else []

def take? {α : Type} (s : Slice) (xs : List α) : Option (List α) :=
  let size : Int := xs.length
  let step := s.step.getD 1
  if step = 0 then none
  else
    let (low, high) := if step < 0 then (-1, size - 1) else (0, size)
    let start := (s.start.map (clamp size low high)).getD (if step < 0 then high else low)
    let stop := (s.stop.map (clamp size low high)).getD (if step < 0 then low else high)
    some ((positions step stop xs.length start).filterMap fun i => xs[i.toNat]?)

/-- The item at a position, which counts from the end when it is below zero. -/
def item? {α : Type} (i : Int) (xs : List α) : Option α :=
  let j := if i < 0 then i + xs.length else i
  if j < 0 then none else xs[j.toNat]?

example : (⟨none, none, some (-2)⟩ : Slice).take? [1, 2, 3, 4] = some [4, 2] := by decide

end Slice
end Crosswalk
