import Crosswalk.Number.Binary64
import Crosswalk.Text.Basic

/-!
# Expressions of XPath

A step goes from each node of its source along an axis to the nodes that a test admits and that
meet all predicates.
-/

namespace Crosswalk.XPath

inductive Axis where
  | ancestor
  | ancestorOrSelf
  | attribute
  | child
  | descendant
  | descendantOrSelf
  | following
  | followingSibling
  | parent
  | preceding
  | precedingSibling
  | self
  deriving DecidableEq

/-- Axes by the names that expressions use. -/
def axes : List (Text × Axis) := [
  ("ancestor", .ancestor), ("ancestor-or-self", .ancestorOrSelf), ("attribute", .attribute),
  ("child", .child), ("descendant", .descendant), ("descendant-or-self", .descendantOrSelf),
  ("following", .following), ("following-sibling", .followingSibling), ("parent", .parent),
  ("preceding", .preceding), ("preceding-sibling", .precedingSibling), ("self", .self)]

/-- What a step admits. A name without short name has no namespace. -/
inductive Test where
  | any
  | anyIn (short : Text)
  | named (short base : Text)
  | node
  | text
  | comment
  | instruction (target : Option Text)
  deriving DecidableEq

inductive Arithmetic where
  | add
  | sub
  | mul
  | div
  | mod
  deriving DecidableEq

inductive Comparison where
  | eq
  | ne
  | lt
  | le
  | gt
  | ge
  deriving DecidableEq

inductive Expr where
  | number (x : Binary64)
  | literal (s : Text)
  /-- The document. -/
  | root
  /-- The node that the expression is evaluated for. -/
  | here
  | step (source : Expr) (axis : Axis) (test : Test) (predicates : List Expr)
  | filter (source condition : Expr)
  | union (left right : Expr)
  | or (left right : Expr)
  | and (left right : Expr)
  | compare (c : Comparison) (left right : Expr)
  | arithmetic (op : Arithmetic) (left right : Expr)
  | neg (e : Expr)
  /-- A call; functions have no namespace. -/
  | call (name : Text) (arguments : List Expr)

instance : Inhabited Expr := ⟨.here⟩

end Crosswalk.XPath
