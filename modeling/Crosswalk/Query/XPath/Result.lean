import Crosswalk.Query.XPath.Expr
import Crosswalk.Query.XPath.Number
import Crosswalk.Xml.Tree

/-!
# Results of XPath

A result is a set of nodes in document order, a truth value, a number or a text. Each kind turns
into the others: a set of nodes is the characters of its first node.

* `Result.toText`, `Result.toNumber`, `Result.toBool`: the conversions.
* `Comparison.holds`: a comparison, which is true of sets when it is true of some of their nodes.
-/

namespace Crosswalk.XPath

open Text

inductive Result where
  | nodes (places : List Nat)
  | bool (b : Bool)
  | number (x : Binary64)
  | text (s : Text)

/-- A set of nodes in document order. -/
def inOrder (places : List Nat) : List Nat := distinct (places.mergeSort fun a b => a ≤ b)

def contentAt (t : Xml.Tree) (i : Nat) : Text := (t[i]?.map Xml.Place.content).getD []

namespace Result

def toText (t : Xml.Tree) : Result → Text
  | .nodes [] => []
  | .nodes (i :: _) => contentAt t i
  | .bool b => if b then "true" else "false"
  | .number x => numberText x
  | .text s => s

def toNumber (t : Xml.Tree) : Result → Binary64
  | .bool b => if b then .ofInt 1 else .zero
  | .number x => x
  | r => readNumber (r.toText t)

def toBool : Result → Bool
  | .nodes places => !places.isEmpty
  | .bool b => b
  | .number x => !x.isNan && !x.same .zero
  | .text s => s != []

def isBool : Result → Bool
  | .bool _ => true
  | _ => false

def isNumber : Result → Bool
  | .number _ => true
  | _ => false

end Result

namespace Comparison

def onNumbers (c : Comparison) (x y : Binary64) : Bool :=
  match c with
  | .eq => x.same y
  | .ne => !x.same y
  | .lt => x.lt y
  | .le => x.le y
  | .gt => y.lt x
  | .ge => y.le x

def isEquality (c : Comparison) : Bool := c == .eq || c == .ne

def onTexts (c : Comparison) (s t : Text) : Bool :=
  match c with
  | .ne => s != t
  | .eq => s == t
  | c => c.onNumbers (readNumber s) (readNumber t)

def boolNumber (b : Bool) : Binary64 := if b then .ofInt 1 else .zero

/-- Results other than sets of nodes: truth values are compared first, then numbers, then texts. -/
def onPlain (c : Comparison) (t : Xml.Tree) (r s : Result) : Bool :=
  if c.isEquality then
    if r.isBool || s.isBool then c.onNumbers (boolNumber r.toBool) (boolNumber s.toBool)
    else if r.isNumber || s.isNumber then c.onNumbers (r.toNumber t) (s.toNumber t)
    else c.onTexts (r.toText t) (s.toText t)
  else c.onNumbers (r.toNumber t) (s.toNumber t)

def holds (c : Comparison) (t : Xml.Tree) (r s : Result) : Bool :=
  match r, s with
  | .nodes is, .nodes js =>
    is.any fun i => js.any fun j => c.onTexts (contentAt t i) (contentAt t j)
  | .nodes is, .bool b => c.onNumbers (boolNumber (!is.isEmpty)) (boolNumber b)
  | .bool b, .nodes js => c.onNumbers (boolNumber b) (boolNumber (!js.isEmpty))
  | .nodes is, s => is.any fun i => c.onPlain t (.text (contentAt t i)) s
  | r, .nodes js => js.any fun j => c.onPlain t r (.text (contentAt t j))
  | r, s => c.onPlain t r s

end Comparison

def Arithmetic.apply (op : Arithmetic) (x y : Binary64) : Binary64 :=
  match op with
  | .add => x.add y
  | .sub => x.sub y
  | .mul => x.mul y
  | .div => x.div y
  | .mod => x.fmod y

end Crosswalk.XPath
