import Crosswalk.Query.Jmes.Functions
import Crosswalk.Query.Jmes.Parser

/-!
# Evaluating JMESPath

* `Expr.eval e v`: what the expression gives for a value; nothing when a function cannot be
  called.
* `Jmes.search path v`: the same for an expression that is read from a text.
-/

namespace Crosswalk.Jmes

/-! ## Values -/

/-- Values that a condition refuses. -/
def isFalse : Value → Bool
  | .null => true
  | .bool b => !b
  | .str [] => true
  | .list [] => true
  | .map [] => true
  | _ => false

/-- Equality, where a truth value never equals a number. -/
def equal (v w : Value) : Bool :=
  match v, w with
  | .bool a, .bool b => a == b
  | .bool _, _ => false
  | _, .bool _ => false
  | v, w => v.same w

def Comparison.holds (c : Comparison) (v w : Value) : Option Value :=
  let order (b : Bool) : Option Value :=
    if (v.isNumber && w.isNumber) || (v.isText && w.isText) then some (.bool b)
    else if (v.isNumber || v.isText) && (w.isNumber || w.isText) then none
    else some .null
  let equals := (v.isNumber || v.isText) && v.same w
  match c with
  | .eq => some (.bool (equal v w))
  | .ne => some (.bool (!equal v w))
  | .lt => order (Value.less v w)
  | .gt => order (Value.less w v)
  | .le => order (Value.less v w || equals)
  | .ge => order (Value.less w v || equals)

def valueAt (i : Int) : Value → Value
  | .list vs => (Slice.item? i vs).getD .null
  | _ => .null

def flattened : Value → Value
  | .list vs => .list (vs.flatMap fun v => match v with | .list ws => ws | w => [w])
  | _ => .null

def memberOf (name : Text) (v : Value) : Value := (v.get? name).getD .null

/-- What an expression gives for each item, without nulls. -/
def collect (f : Value → Option Value) (vs : List Value) : Option Value :=
  (vs.mapM f).map fun ws => .list (ws.filter fun w => !w.isNull)

def project (f : Value → Option Value) : Value → Option Value
  | .list vs => collect f vs
  | _ => some .null

def projectValues (f : Value → Option Value) : Value → Option Value
  | .map ms => collect f (ms.map (·.2))
  | _ => some .null

/-- The items that meet a condition. -/
def kept? (condition : Value → Option Value) : List Value → Option (List Value)
  | [] => some []
  | v :: vs =>
    match condition v, kept? condition vs with
    | some b, some ws => some (if isFalse b then ws else v :: ws)
    | _, _ => none

/-- Numbers are true, zero too. -/
def negate (v : Value) : Value := .bool (if v.isNumber then false else isFalse v)

mutual

def Expr.eval : Expr → Value → Option Value
  | .current, v => some v
  | .field name, v => some (memberOf name v)
  | .literal w, _ => some w
  | .index i, v => some (valueAt i v)
  | .slice s, v =>
    match v with
    | .list vs => (s.take? vs).map .list
    | _ => some .null
  | .chain first second, v => (first.eval v).bind fun w => second.eval w
  | .indexed first second, v => (first.eval v).bind fun w => second.eval w
  | .project source item, v => (source.eval v).bind (project fun w => item.eval w)
  | .projectValues source item, v => (source.eval v).bind (projectValues fun w => item.eval w)
  | .filter source item condition, v =>
    (source.eval v).bind fun base =>
      match base with
      | .list vs =>
        (kept? (fun w => condition.eval w) vs).bind fun ws => collect (fun w => item.eval w) ws
      | _ => some .null
  | .flatten source, v => (source.eval v).map flattened
  | .compare c left right, v =>
    (left.eval v).bind fun a => (right.eval v).bind fun b => c.holds a b
  | .or left right, v => (left.eval v).bind fun a => if isFalse a then right.eval v else some a
  | .and left right, v => (left.eval v).bind fun a => if isFalse a then some a else right.eval v
  | .not e, v => (e.eval v).map negate
  | .list items, v => if v.isNull then some .null else (evalItems items v).map .list
  | .hash members, v =>
    if v.isNull then some .null else (evalMembers members v).map fun ms => .map (Pairs.ofList ms)
  | .call name arguments, v =>
    (evalArguments arguments v).bind fun args => (functions.lookup name).bind fun f => f args
  | .lazy _, _ => none

def evalItems : List Expr → Value → Option (List Value)
  | [], _ => some []
  | e :: es, v => (e.eval v).bind fun w => (evalItems es v).map (w :: ·)

def evalMembers : List (Text × Expr) → Value → Option (List (Text × Value))
  | [], _ => some []
  | (k, e) :: es, v => (e.eval v).bind fun w => (evalMembers es v).map ((k, w) :: ·)

def evalArguments : List Expr → Value → Option (List Argument)
  | [], _ => some []
  | .lazy e :: es, v => (evalArguments es v).map (.apply (fun w => e.eval w) :: ·)
  | e :: es, v => (e.eval v).bind fun w => (evalArguments es v).map (.value w :: ·)

end

/-- What a path gives for a value, if it can be read and evaluated. -/
def search (path : Text) (v : Value) : Option Value := (Expr.read? path).bind fun e => e.eval v

end Crosswalk.Jmes
