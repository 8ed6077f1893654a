import Crosswalk.Document.Value

/-!
# Maps in order

`Json.ordered v` is `v` with the members of every map in the order of their names, so values that
differ in nothing else are written alike.
-/

namespace Crosswalk.Json

/-- A member at its place in the order of the names. -/
def insertMember (k : Text) (v : Value) : Pairs Text Value → Pairs Text Value
  | [] => [(k, v)]
  | (l, w) :: ms => if k.le l then (k, v) :: (l, w) :: ms else (l, w) :: insertMember k v ms

mutual

def ordered : Value → Value
  | .list items => .list (orderedItems items)
  | .map members => .map (orderedMembers members)
  | v => v

def orderedItems : List Value → List Value
  | [] => []
  | v :: vs => ordered v :: orderedItems vs

def orderedMembers : List (Text × Value) → List (Text × Value)
  | [] => []
  | (k, v) :: ms => insertMember k (ordered v) (orderedMembers ms)

end

end Crosswalk.Json
