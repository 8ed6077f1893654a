import Crosswalk.Text.Basic

/-!
# Modifiers

What an entry of a mapping does with the value it reads: it gives a fixed text (`raw` always, `val`
when there is a value), or it fills a template between a `prepend` and an `append`.

* `Modifier.fault?`: why the parts of a modifier do not fit together.
* `Modifier.staticText`: the text of the template outside its placeholders.
-/

namespace Crosswalk

open Text

structure Modifier where
  raw : Option Text
  val : Option Text
  prepend : Option Text
  pattern : Option Text
  append : Option Text
  /-- The placeholders that stand for a query, and the reserved ones. -/
  replace : List Text
  /-- The filter expressions. -/
  filters : List Text
  /-- For each filter expression, whether a query stands in it. -/
  hasReplace : List Bool
  deriving DecidableEq

/-- Placeholders filled from the variables and never by a query. -/
def reservedTokens : List Text :=
  ["\x7b\x7b value \x7d\x7d", "\x7b\x7b label \x7d\x7d", "\x7b\x7b list \x7d\x7d"]

namespace Modifier

def empty : Modifier := ⟨none, none, none, none, none, [], [], []⟩

instance : Inhabited Modifier := ⟨empty⟩

def ofRaw (s : Text) : Modifier := { empty with raw := some s }

def ofVal (s : Text) : Modifier := { empty with val := some s }

def isEmpty (m : Modifier) : Bool :=
  m.raw.isNone && m.val.isNone && m.prepend.isNone && m.pattern.isNone && m.append.isNone

/-- Whether the modifier gives a fixed text. -/
def isLiteral (m : Modifier) : Bool := m.raw.isSome || m.val.isSome

inductive Fault where
  | literalAndTemplate
  | rawAndVal
  | flagCount
  deriving DecidableEq

def Fault.message : Fault → Text
  | .literalAndTemplate => "raw/val cannot be combined with prepend, pattern or append"
  | .rawAndVal => "raw and val are mutually exclusive"
  | .flagCount => "filters_has_replace must flag every filter expression"

def fault? (m : Modifier) : Option Fault :=
  let template := m.prepend.isSome || m.pattern.isSome || m.append.isSome
  if m.isLiteral && template then some .literalAndTemplate
  else if m.raw.isSome && m.val.isSome then some .rawAndVal
  else if m.hasReplace ≠ [] ∧ m.hasReplace.length ≠ m.filters.length then some .flagCount
  else none

def staticText (m : Modifier) : Text :=
  (m.filters ++ m.replace ++ reservedTokens).foldl (fun s token => replaceAll token [] s)
    (m.pattern.getD [])

end Modifier
end Crosswalk
