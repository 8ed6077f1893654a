import Crosswalk.Text.Basic

/-!
# Ranges of a text or of a list

* `upTo stop xs`: the items before the position `stop`, counted from the end when negative.
* `sublist start size xs`: the items of a list from `start`.
* `substr start size s`: the characters of a text from `start`.

In both, a negative `start` counts from the end and a negative `size` leaves items out at the end.
They differ when more items are left out than there are.
-/

namespace Crosswalk.Text

/-- The items before the position `stop`, counted from the end when negative. -/
def upTo {α : Type} (stop : Int) (xs : List α) : List α :=
  if stop < 0 then xs.take (xs.length + stop).toNat else xs.take stop.toNat

/-- A position counted from the end when negative, never before the first item. -/
def position (size : Nat) (start : Int) : Nat :=
  if start < 0 then (size + start).toNat else start.toNat

def sublist {α : Type} (start size : Int) (xs : List α) : List α :=
  let first := position xs.length start
  let stop := if 0 ≤ size then first + size else xs.length + size
  (upTo stop xs).drop first

/-- Without a `size`, the characters to the end. -/
def substr (start : Int) (size : Option Int) (s : Text) : Text :=
  let first := position s.length start
  match size with
  | none => s.drop first
  | some n =>
    if n < 0 then (s.take (s.length + n).toNat).drop first
    else (s.drop first).take n.toNat

example : substr (-3) (some 2) "abcde" = "cd" := by decide

example : sublist 0 (-4) [1, 2, 3] = [1, 2] := by decide

end Crosswalk.Text
