import Crosswalk.Document.Order
import Crosswalk.Json.Writer
import Crosswalk.Number.Reading

/-!
# Functions of JMESPath

A function takes values, and expressions that it applies itself. It gives nothing when the number
or the kinds of its arguments are wrong.
-/

namespace Crosswalk.Jmes

open Text

inductive Argument where
  | value (v : Value)
  /-- An expression, which may fail. -/
  | apply (f : Value → Option Value)

abbrev Function := List Argument → Option Value

def numbers? : Value → Option (List Value)
  | .list vs => if vs.all Value.isNumber then some vs else none
  | _ => none

def texts? : Value → Option (List Text)
  | .list vs => vs.mapM Value.text?
  | _ => none

/-- A list of numbers alone or of texts alone. -/
def ordered? : Value → Option (List Value)
  | .list vs => if vs.all Value.isNumber || vs.all Value.isText then some vs else none
  | _ => none

def onValue (f : Value → Option Value) : Function
  | [.value v] => f v
  | _ => none

def onValues (f : Value → Value → Option Value) : Function
  | [.value v, .value w] => f v w
  | _ => none

/-! ## Numbers -/

def toFloat : Value → Binary64
  | .int n => .ofInt n
  | .float x => x
  | _ => .nan

def add : Value → Value → Value
  | .int m, .int n => .int (m + n)
  | v, w => .float ((toFloat v).add (toFloat w))

def sum (vs : List Value) : Value := vs.foldl add (.int 0)

/-- The sum divided by the count; an empty list has none. -/
def average (vs : List Value) : Value :=
  if vs.isEmpty then .null else .float ((toFloat (sum vs)).div (.ofInt vs.length))

def absolute : Value → Option Value
  | .int n => some (.int n.natAbs)
  | .float x => some (.float x.abs)
  | _ => none

/-- A whole number that a rounding gives. -/
def wholeOf (round : Binary64 → Binary64) : Value → Option Value
  | .int n => some (.int n)
  | .float x => (round x).toInt?.map .int
  | _ => none

def toNumber : Value → Value
  | .str s =>
    match readInt? s with
    | some n => .int n
    | none => ((readFloat? s).map .float).getD .null
  | .int n => .int n
  | .float x => .float x
  | _ => .null

/-! ## Texts and lists -/

def contains? : Value → Value → Option Value
  | .str s, .str t => some (.bool (Text.contains t s))
  | .list vs, w => some (.bool (vs.any fun v => v.same w))
  | _, _ => none

def endsWith (mark s : Text) : Bool := startsWith mark.reverse s.reverse

def length? : Value → Option Value
  | .str s => some (.int s.length)
  | .list vs => some (.int vs.length)
  | .map ms => some (.int ms.length)
  | _ => none

def reverse? : Value → Option Value
  | .str s => some (.str s.reverse)
  | .list vs => some (.list vs.reverse)
  | _ => none

def join? (separator array : Value) : Option Value :=
  separator.text?.bind fun s => (texts? array).map fun ts => .str (joinWith s ts)

def kindName : Value → Text
  | .null => "null"
  | .bool _ => "boolean"
  | .int _ => "number"
  | .float _ => "number"
  | .str _ => "string"
  | .list _ => "array"
  | .map _ => "object"

def toText : Value → Text
  | .str s => s
  | v => Json.write Json.compact v

def toList : Value → Value
  | .list vs => .list vs
  | v => .list [v]

/-! ## Maps -/

def mergeFrom (ms : Pairs Text Value) : List Argument → Option Value
  | [] => some (.map ms)
  | .value (.map ns) :: more => mergeFrom (ms.merge ns) more
  | _ => none

def merge : Function
  | .value (.map ms) :: more => mergeFrom ms more
  | _ => none

def firstPresent : List Argument → Option Value
  | [] => some .null
  | .value .null :: more => firstPresent more
  | .value v :: _ => some v
  | .apply _ :: _ => none

/-! ## Applying expressions -/

/-- Each item with its key. -/
def keyed? (f : Value → Option Value) (vs : List Value) : Option (List (Value × Value)) :=
  vs.mapM fun v => (f v).map fun k => (k, v)

def mapFunction : Function
  | [.apply f, .value (.list vs)] => (vs.mapM f).map .list
  | _ => none

/-- The items in order of keys that are all numbers or all texts. -/
def sortBy : Function
  | [.value (.list vs), .apply f] =>
    (keyed? f vs).bind fun ks =>
      (ordered? (.list (ks.map (·.1)))).map fun _ =>
        .list ((ks.mergeSort fun a b => !Value.less b.1 a.1).map (·.2))
  | _ => none

/-- The item with the key that a choice among keys gives, where `better a b` replaces `b` by
`a`. -/
def pickBy (better : Value → Value → Bool) : Function
  | [.value (.list vs), .apply f] =>
    (keyed? f vs).bind fun ks =>
      (ordered? (.list (ks.map (·.1)))).map fun _ =>
        match ks with
        | [] => .null
        | k :: more => (more.foldl (fun best w => if better w.1 best.1 then w else best) k).2
  | _ => none

/-! ## The table -/

def functions : List (Text × Function) := [
  ("abs", onValue absolute),
  ("avg", onValue fun v => (numbers? v).map average),
  ("ceil", onValue (wholeOf .ceil)),
  ("contains", onValues contains?),
  ("ends_with", onValues fun v w =>
    v.text?.bind fun s => w.text?.map fun t => .bool (endsWith t s)),
  ("floor", onValue (wholeOf .floor)),
  ("join", onValues join?),
  ("keys", onValue fun v => v.members?.map fun ms => .list (ms.map fun p => .str p.1)),
  ("length", onValue length?),
  ("map", mapFunction),
  ("max", onValue fun v => (ordered? v).map fun vs => (Value.greatest? id vs).getD .null),
  ("max_by", pickBy fun a b => Value.less b a),
  ("merge", merge),
  ("min", onValue fun v => (ordered? v).map fun vs => (Value.least? id vs).getD .null),
  ("min_by", pickBy Value.less),
  ("not_null", fun arguments => if arguments.isEmpty then none else firstPresent arguments),
  ("reverse", onValue reverse?),
  ("sort", onValue fun v => (ordered? v).map fun vs => .list (Value.sorted vs)),
  ("sort_by", sortBy),
  ("starts_with", onValues fun v w =>
    v.text?.bind fun s => w.text?.map fun t => .bool (startsWith t s)),
  ("sum", onValue fun v => (numbers? v).map sum),
  ("to_array", onValue fun v => some (toList v)),
  ("to_number", onValue fun v => some (toNumber v)),
  ("to_string", onValue fun v => some (.str (toText v))),
  ("type", onValue fun v => some (.str (kindName v))),
  ("values", onValue fun v => v.members?.map fun ms => .list (ms.map (·.2)))]

end Crosswalk.Jmes
