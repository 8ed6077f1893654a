import Crosswalk.Document.Order
import Crosswalk.Number.Numeral
import Crosswalk.Query.Slice

/-!
# Paths of JSONPath

A path leads from a value to a list of values below it.

* `Path.find root p v`: the values that `p` leads to from `v`, in the order of the document.
-/

namespace Crosswalk.JsonPath

inductive Comparison where
  | eq
  | ne
  | lt
  | le
  | gt
  | ge
  deriving DecidableEq

/-- A comparison with a literal. -/
structure Check where
  comparison : Comparison
  literal : Value

inductive Path where
  | root
  | this
  | fields (names : List Text)
  | anyField
  | indexes (positions : List Int)
  | items
  | slice (s : Slice)
  | length
  | child (left right : Path)
  /-- The second path from every value at or below those of the first. -/
  | descend (left right : Path)
  | union (left right : Path)
  /-- The items that pass every test: the path of a test leads to a value that meets the check. -/
  | filter (tests : List (Path × Option Check))

instance : Inhabited Path := ⟨.this⟩

/-! ## Steps -/

mutual

/-- A value and all values below it, each before those below itself. -/
def nodes : Value → List Value
  | .list vs => .list vs :: itemNodes vs
  | .map ms => .map ms :: memberNodes ms
  | v => [v]

def itemNodes : List Value → List Value
  | [] => []
  | v :: vs => nodes v ++ itemNodes vs

def memberNodes : List (Text × Value) → List Value
  | [] => []
  | (_, v) :: ms => nodes v ++ memberNodes ms

end

/-- The items of a list, or the values of a map. -/
def parts : Value → List Value
  | .list vs => vs
  | .map ms => ms.map (·.2)
  | _ => []

def lengthOf : Value → List Value
  | .str s => [.int s.length]
  | .list vs => [.int vs.length]
  | .map ms => [.int ms.length]
  | _ => []

def itemsAt (positions : List Int) : Value → List Value
  | .list vs => positions.filterMap fun i => Slice.item? i vs
  | _ => []

def sliceOf (s : Slice) : Value → List Value
  | .list vs => (s.take? vs).getD []
  | _ => []

/-! ## Checks -/

/-- A value as a whole number, when a whole number or a truth value is asked for. -/
def wholeOf? : Value → Option Int
  | .bool b => some (if b then 1 else 0)
  | .int n => some n
  | .float x => x.truncate?
  | .str s => readInt? s
  | _ => none

/-- The value that is compared with a literal. -/
def comparable? (literal v : Value) : Option Value :=
  match literal with
  | .int _ => (wholeOf? v).map .int
  | .bool _ => (wholeOf? v).map .int
  | .float _ => if v.isNull then none else some v
  | _ => some v

def Comparison.holds (c : Comparison) (v w : Value) : Bool :=
  let ordered := (v.amount?.isSome && w.amount?.isSome) || (v.isText && w.isText)
  match c with
  | .eq => v.same w
  | .ne => !v.same w
  | .lt => Value.less v w
  | .gt => Value.less w v
  | .le => ordered && (Value.less v w || v.same w)
  | .ge => ordered && (Value.less w v || v.same w)

def Check.holds (c : Check) (v : Value) : Bool :=
  (comparable? c.literal v).any fun w => c.comparison.holds w c.literal

/-- Without a check, any value will do. -/
def meets (check : Option Check) (vs : List Value) : Bool :=
  vs.any fun v => check.all fun c => c.holds v

/-! ## Search -/

mutual

def Path.find (root : Value) : Path → Value → List Value
  | .root, _ => [root]
  | .this, v => [v]
  | .fields names, v => names.filterMap fun name => v.get? name
  | .anyField, v => (v.members?.getD []).map (·.2)
  | .indexes positions, v => itemsAt positions v
  | .items, v => parts v
  | .slice s, v => sliceOf s v
  | .length, v => lengthOf v
  | .child left right, v => (left.find root v).flatMap fun w => right.find root w
  | .descend left right, v =>
    (left.find root v).flatMap fun w => (nodes w).flatMap fun u => right.find root u
  | .union left right, v => left.find root v ++ right.find root v
  | .filter tests, v => (parts v).filter fun w => passes tests w

/-- Inside a test the item itself is the root. -/
def passes : List (Path × Option Check) → Value → Bool
  | [], _ => true
  | (p, check) :: tests, v => meets check (p.find v v) && passes tests v

end

end Crosswalk.JsonPath
