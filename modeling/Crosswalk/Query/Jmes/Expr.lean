import Crosswalk.Document.Value
import Crosswalk.Query.Slice

/-!
# Expressions of JMESPath

An expression maps a value to a value. A projection applies an expression to the items of a list,
or to the values of a map, and drops the nulls.
-/

namespace Crosswalk.Jmes

inductive Comparison where
  | eq
  | ne
  | lt
  | le
  | gt
  | ge
  deriving DecidableEq

inductive Expr where
  | current
  | field (name : Text)
  | literal (v : Value)
  | index (i : Int)
  | slice (s : Slice)
  /-- The second expression on the value of the first. -/
  | chain (first second : Expr)
  /-- A chain of positions, which takes further positions without projecting them. -/
  | indexed (first second : Expr)
  | project (source item : Expr)
  | projectValues (source item : Expr)
  | filter (source item condition : Expr)
  | flatten (source : Expr)
  | compare (c : Comparison) (left right : Expr)
  | or (left right : Expr)
  | and (left right : Expr)
  | not (e : Expr)
  | list (items : List Expr)
  | hash (members : List (Text × Expr))
  | call (name : Text) (arguments : List Expr)
  /-- An expression that a function applies. -/
  | lazy (e : Expr)

instance : Inhabited Expr := ⟨.current⟩

end Crosswalk.Jmes
