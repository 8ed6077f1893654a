import Crosswalk.Document.Value

/-!
# Comparing values

* `Value.less`: numbers by their value and texts by their characters; nothing else has an order.
* `Value.same`: equality up to the writing of numbers and the order of members, where the truth
  values count as one and zero.
-/

namespace Crosswalk.Value

/-- The place of a number on the extended line. -/
def extended? : Value → Option Binary64.Extended
  | .int n => some (.at n)
  | .float x => x.extended?
  | _ => none

/-- The same, where true is one and false is zero. -/
def amount? : Value → Option Binary64.Extended
  | .bool b => some (.at (if b then 1 else 0))
  | v => v.extended?

def isNumber : Value → Bool
  | .int _ => true
  | .float _ => true
  | _ => false

def isText (v : Value) : Bool := v.text?.isSome

def less : Value → Value → Bool
  | .str s, .str t => decide (s < t)
  | v, w =>
    match v.extended?, w.extended? with
    | some a, some b => a.lt b
    | _, _ => false

mutual

def same : Value → Value → Bool
  | .null, .null => true
  | .str s, .str t => s == t
  | .list vs, .list ws => sameItems vs ws
  | .map ms, .map ns => ms.length == ns.length && sameMembers ms ns
  | v, w =>
    match v.amount?, w.amount? with
    | some a, some b => a.same b
    | _, _ => false

def sameItems : List Value → List Value → Bool
  | [], [] => true
  | v :: vs, w :: ws => same v w && sameItems vs ws
  | _, _ => false

/-- Every member has a member of the same key and value in `ns`. -/
def sameMembers : List (Text × Value) → List (Text × Value) → Bool
  | [], _ => true
  | (k, v) :: ms, ns =>
    (match Pairs.get? k ns with
      | some w => same v w
      | none => false) && sameMembers ms ns

end

/-- The values in order, where equal ones keep theirs. -/
def sorted (vs : List Value) : List Value := vs.mergeSort fun a b => !less b a

/-- The first of the least values. -/
def least? (key : Value → Value) : List Value → Option Value
  | [] => none
  | v :: vs => some (vs.foldl (fun best w => if less (key w) (key best) then w else best) v)

/-- The first of the greatest values. -/
def greatest? (key : Value → Value) : List Value → Option Value
  | [] => none
  | v :: vs => some (vs.foldl (fun best w => if less (key best) (key w) then w else best) v)

end Crosswalk.Value
