import Crosswalk.Number.Numeral
import Crosswalk.Pairs
import Crosswalk.Template.Placeholder
import Crosswalk.Text.Quote

/-!
# Compiled patterns

`compile pattern` reads a pattern:

* a quoted pattern is a raw text, and one without placeholders a text for each value;
* otherwise the text before the first opening braces is prepended and the text after the last
  closing braces appended; between them stand the placeholders.

While the filter expressions are read, the queries and the variable references inside them are
hidden behind mask words, so that their braces end no expression.
-/

namespace Crosswalk.Template

open Text

/-- The word that hides the query of this number. -/
def queryMask (i : Nat) : Text := "__To_Be_Replaced__" ++ natText i ++ "__"

/-- The word that hides the variable reference of this number. -/
def referenceMask (i : Nat) : Text := "__Variable__" ++ natText i ++ "__"

/-- Tokens with the words that hide them. -/
abbrev Masks := List (Text × Text)

def masksFor (mask : Nat → Text) (tokens : List Text) : Masks :=
  tokens.zip ((List.range tokens.length).map mask)

def Masks.hide (masks : Masks) (s : Text) : Text :=
  masks.foldl (fun s p => replaceAll p.1 p.2 s) s

def Masks.reveal (masks : Masks) (s : Text) : Text :=
  masks.foldl (fun s p => replaceAll p.2 p.1 s) s

/-- What a form reads, each with the number of characters before it. -/
def placed {α : Type} (before : Int) : List (Piece α) → List (Int × α)
  | [] => []
  | .char _ :: ps => placed (before + 1) ps
  | .found value s :: ps => (before, value) :: placed (before + s.length) ps

/-- The number of characters before a word. A word that only appears once the expressions around
it are gone comes before all others. -/
def firstPlace (word masked : Text) : Int :=
  match find? word masked with
  | some i => i
  | none => -1

/-- The filter expressions of a masked text, and the references that stand outside of them, in
order of their first place. -/
def expressions (references : Masks) (masked : Text) : List Text :=
  let inside := placed 0 (pieces expressionForm masked)
  let outside := erase expressionForm masked
  let alone := references.filterMap fun p =>
    if contains p.2 outside then some (firstPlace p.2 masked, p.2) else none
  (sortBy (fun a b => a.1 ≤ b.1) (inside ++ alone)).map (·.2)

/-- An expression as it is written, and whether a query stands in it. -/
def revealed (queries references : Masks) (expression : Text) : Text × Bool :=
  let shown := references.reveal expression
  let written := queries.reveal shown
  (written, written != shown)

/-- The filter expressions with their flags, without reserved tokens and repetitions. -/
def filtersOf (queries references : Masks) (masked : Text) : List (Text × Bool) :=
  (expressions references masked).foldl (fun found expression =>
    if reservedTokens.elem (references.reveal expression) then found
    else
      let p := revealed queries references expression
      if (found.map (·.1)).elem p.1 then found else found ++ [p]) []

/-- A text of at least one character. -/
def nonEmpty (s : Text) : Option Text := if s = [] then none else some s

def compileTemplate (prepend body append : Text) : Modifier :=
  let replace := distinct (readings replacementForm body)
  let queries := masksFor queryMask replace
  let masked := queries.hide body
  let references := masksFor referenceMask (distinct (readings referenceForm masked))
  let filters := filtersOf queries references (references.hide masked)
  { Modifier.empty with
    prepend := nonEmpty prepend
    pattern := some body
    append := nonEmpty append
    replace := replace
    filters := filters.map (·.1)
    hasReplace := filters.map (·.2) }

/-- The parts around the last `mark` of a text. -/
def cutLastMark? (mark : Text) : Text → Option (Text × Text)
  | [] => none
  | c :: s =>
    match cutLastMark? mark s with
    | some (a, b) => some (c :: a, b)
    | none => (after? mark (c :: s)).map fun rest => ([], rest)

/-- A pattern as the text before the first opening braces, the part up to the last closing ones
and the text after them. -/
def parts? (pattern : Text) : Option (Text × Text × Text) := do
  let start ← find? openMark pattern
  let (before, append) ← cutLastMark? closeMark pattern
  if before.length < start then none
  else
    some (pattern.take start, (pattern.take (before.length + 2)).drop start, append)

def compile (pattern : Text) : Modifier :=
  let s := trim pattern
  if s = [] then .empty
  else if isQuoted s then .ofRaw (trim (unquote s))
  else if reservedTokens.elem s then { Modifier.empty with pattern := some s, replace := [s] }
  else
    match parts? s with
    | none => .ofVal s
    | some (prepend, body, append) => compileTemplate prepend body append

/-- A missing pattern changes nothing. -/
def compile? (pattern : Option Text) : Modifier :=
  match pattern with
  | none => .empty
  | some s => compile s

end Crosswalk.Template
