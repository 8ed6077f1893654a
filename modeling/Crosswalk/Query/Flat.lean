import Crosswalk.Document.Value

/-!
# Flat documents

A flat document has one entry for each scalar of a nested one. Its key joins with points the keys
and positions that lead to the scalar; points and backslashes inside a key are escaped.

* `Value.flatten v`: the flat document of `v`, empty when `v` is a scalar.
-/

namespace Crosswalk

def escapeKey (key : Text) : Text :=
  key.flatMap fun c => if c = '.' ∨ c = '\\' then ['\\', c] else [c]

/-- A key below another one. An empty key has nothing to join. -/
def joinKey (base key : Text) : Text :=
  if base = [] then escapeKey key else base ++ '.' :: escapeKey key

namespace Value

mutual

/-- The scalars of a value with their keys below `base`. -/
def leaves (base : Text) : Value → List (Text × Value)
  | .list items => itemLeaves base 0 items
  | .map members => memberLeaves base members
  | v => [(base, v)]

def itemLeaves (base : Text) (i : Nat) : List Value → List (Text × Value)
  | [] => []
  | v :: vs => leaves (joinKey base (natText i)) v ++ itemLeaves base (i + 1) vs

def memberLeaves (base : Text) : List (Text × Value) → List (Text × Value)
  | [] => []
  | (k, v) :: ms => leaves (joinKey base k) v ++ memberLeaves base ms

end

def flatten (v : Value) : Pairs Text Value := if v.isScalar then [] else Pairs.ofList (leaves [] v)

example : (flatten (.map [("a.b", .list [.int 7])])).map (·.1) = [("a\\.b.0" : Text)] := by decide

end Value
end Crosswalk
