import Crosswalk.Query.XPath.Functions
import Crosswalk.Query.XPath.Parser

/-!
# Evaluating XPath

* `Expr.eval e c`: what an expression gives in a context; nothing when a short name of a namespace
  or a function is unknown, or when a set of nodes is due and something else is given.
* `search`: the same for an expression that is read from a text.
-/

namespace Crosswalk.XPath

open Xml

/-- Whether a predicate keeps a node: a number is a position. -/
def keeps (position : Nat) (r : Result) : Bool :=
  match r with
  | .number x => x.same (.ofInt position)
  | r => r.toBool

/-- The nodes for which a condition gives a result that keeps them; each node is asked with its
position, from `position` on. -/
def filterFrom (condition : Nat → Nat → Option Result) (position : Nat) :
    List Nat → Option (List Nat)
  | [] => some []
  | i :: is =>
    match condition i position with
    | none => none
    | some r =>
      (filterFrom condition (position + 1) is).map fun js =>
        if keeps position r then i :: js else js

/-- The places that an axis and a test lead to, with their predicates, from each place. -/
def stepFrom (c : Context) (axis : Axis) (test : Test)
    (meets : List Nat → Option (List Nat)) (places : List Nat) : Option (List Nat) :=
  match test.uri? c.spaces with
  | none => none
  | some uri =>
    let admitted := fun i => (axis.places c.tree i).filter fun j =>
      (placeAt c.tree j).any (test.admits axis.namesAttributes uri)
    (places.mapM fun i => meets (admitted i)).map fun found => inOrder found.flatten

mutual

def Expr.eval : Expr → Context → Option Result
  | .number x, _ => some (.number x)
  | .literal s, _ => some (.text s)
  | .root, _ => some (.nodes [0])
  | .here, c => some (.nodes [c.node])
  | .step source axis test predicates, c =>
    match source.eval c with
    | some (.nodes places) =>
      (stepFrom c axis test (fun is => evalPredicates predicates c is) places).map .nodes
    | _ => none
  | .filter source condition, c =>
    match source.eval c with
    | some (.nodes places) =>
      (filterFrom (fun i position =>
        condition.eval { c with node := i, position := position, size := places.length })
        1 places).map .nodes
    | _ => none
  | .union left right, c =>
    match left.eval c, right.eval c with
    | some (.nodes is), some (.nodes js) => some (.nodes (inOrder (is ++ js)))
    | _, _ => none
  | .or left right, c =>
    (left.eval c).bind fun r =>
      if r.toBool then some (.bool true) else (right.eval c).map fun s => .bool s.toBool
  | .and left right, c =>
    (left.eval c).bind fun r =>
      if r.toBool then (right.eval c).map fun s => .bool s.toBool else some (.bool false)
  | .compare op left right, c =>
    (left.eval c).bind fun r => (right.eval c).map fun s => .bool (op.holds c.tree r s)
  | .arithmetic op left right, c =>
    (left.eval c).bind fun r =>
      (right.eval c).map fun s => .number (op.apply (c.number r) (c.number s))
  | .neg e, c => (e.eval c).map fun r => .number (c.number r).neg
  | .call name arguments, c =>
    (evalArguments arguments c).bind fun rs => (functions.lookup name).bind fun f => f c rs

/-- The nodes that meet the predicates one after another. -/
def evalPredicates : List Expr → Context → List Nat → Option (List Nat)
  | [], _, places => some places
  | e :: es, c, places =>
    (filterFrom (fun i position =>
      e.eval { c with node := i, position := position, size := places.length }) 1 places).bind
      fun kept => evalPredicates es c kept

def evalArguments : List Expr → Context → Option (List Result)
  | [], _ => some []
  | e :: es, c => (e.eval c).bind fun r => (evalArguments es c).map (r :: ·)

end

/-- What a path gives for a place of a document, if it can be read and evaluated; its short names
of namespaces are those of `spaces`. -/
def search (spaces : Spaces) (t : Tree) (path : Text) (i : Nat) : Option Result :=
  (Expr.read? path).bind fun e => e.eval ⟨t, spaces, i, 1, 1⟩

end Crosswalk.XPath
