import Crosswalk.Query.XPath.Result
import Crosswalk.Xml.Reader

/-!
# Axes of XPath

* `Axis.places axis t i`: the places that an axis leads to from a place, nearest first.
* `Test.admits`: whether a step admits a place.
-/

namespace Crosswalk.XPath

open Xml

def placeAt (t : Tree) (i : Nat) : Option Place := t[i]?

/-- The places of a document that meet a condition, in document order. -/
def select (t : Tree) (p : Place → Bool) : List Nat :=
  (t.toList.filter p).map Place.index

/-- The places below a place that meet a condition, its attributes among them. -/
def selectBelow (t : Tree) (p : Place) (q : Place → Bool) : List Nat :=
  ((t.extract (p.index + 1) (p.last + 1)).toList.filter q).map Place.index

def isChildOf (i : Nat) (p : Place) : Bool := p.parent == some i && !p.isAttribute

/-- The places around a place, the nearest one first. Parents come before their children, so the
count of places bounds the way up. -/
def ancestors (t : Tree) : Nat → Nat → List Nat
  | 0, _ => []
  | fuel + 1, i =>
    match (placeAt t i).bind Place.parent with
    | some j => j :: ancestors t fuel j
    | none => []

def siblings (t : Tree) (p : Place) (keep : Nat → Bool) : List Nat :=
  match p.parent with
  | some j => if p.isAttribute then [] else select t fun q => isChildOf j q && keep q.index
  | none => []

/-- The places before a place, without those around it. -/
def before (t : Tree) (p : Place) : List Nat :=
  select t fun q => q.last < p.index && !q.isAttribute

def Axis.places (axis : Axis) (t : Tree) (i : Nat) : List Nat :=
  match placeAt t i with
  | none => []
  | some p =>
    match axis with
    | .self => [i]
    | .parent => p.parent.toList
    | .ancestor => ancestors t t.size i
    | .ancestorOrSelf => i :: ancestors t t.size i
    | .attribute => selectBelow t p fun q => q.parent == some i && q.isAttribute
    | .child => selectBelow t p (isChildOf i)
    | .descendant => selectBelow t p fun q => !q.isAttribute
    | .descendantOrSelf => i :: selectBelow t p fun q => !q.isAttribute
    | .followingSibling => siblings t p fun j => i < j
    | .precedingSibling => (siblings t p fun j => j < i).reverse
    | .following => select t fun q => p.last < q.index && !q.isAttribute
    | .preceding => (before t p).reverse

/-- Whether the nodes of an axis that have names are attributes. -/
def Axis.namesAttributes : Axis → Bool
  | .attribute => true
  | _ => false

/-- Whether a place is of the kind that an axis names. -/
def isPrincipal (attributes : Bool) (p : Place) : Bool :=
  if attributes then p.isAttribute else p.isElement

/-- A test whose short name stands for the namespace `uri`. -/
def Test.admits (test : Test) (attributes : Bool) (uri : Text) (p : Place) : Bool :=
  match test with
  | .any => isPrincipal attributes p
  | .anyIn _ => isPrincipal attributes p && p.name?.any fun n => n.uri == uri
  | .named _ base =>
    isPrincipal attributes p && p.name?.any fun n => n.uri == uri && n.base == base
  | .node => true
  | .text => match p.site with | .node (.text _) => true | _ => false
  | .comment => match p.site with | .node (.comment _) => true | _ => false
  | .instruction target =>
    match p.site with
    | .node (.instruction name _) => target.all (· == name)
    | _ => false

/-- The namespace of a test, if its short name stands for one. -/
def Test.uri? (spaces : Spaces) (test : Test) : Option Text :=
  let uriOf := fun (short : Text) =>
    if short = [] then some [] else if short = "xml" then some xmlSpace else Pairs.get? short spaces
  match test with
  | .anyIn short => uriOf short
  | .named short _ => uriOf short
  | _ => some []

end Crosswalk.XPath
