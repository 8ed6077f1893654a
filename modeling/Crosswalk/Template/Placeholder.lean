import Crosswalk.Text.Blank
import Crosswalk.Text.Scan
import Crosswalk.Text.Word
import Crosswalk.Template.Modifier

/-!
# Placeholders

Three forms between double braces:

* `replacementForm`: `path` without a space inside the braces, or a reserved token.
* `expressionForm`: a filter expression, with a space inside each pair of braces.
* `referenceForm`: one word between spaces, the name of a variable.
-/

namespace Crosswalk.Template

open Text

def openMark : Text := ['{', '{']

def closeMark : Text := ['}', '}']

def spacedOpen : Text := ['{', '{', ' ']

def spacedClose : Text := [' ', '}', '}']

/-- A variable reference to `name`. -/
def reference (name : Text) : Text := spacedOpen ++ name ++ spacedClose

/-- The fewest characters, none of them blank, before closing braces. -/
def tightLength? : Text → Option Nat
  | [] => none
  | c :: s =>
    if isBlank c then none
    else if startsWith closeMark s then some 1
    else (tightLength? s).map (· + 1)

/-- The fewest characters on one line before closing braces, the last of them not blank. -/
def looseTail? : Text → Option Nat
  | [] => none
  | c :: s =>
    if !isBlank c && startsWith closeMark s then some 1
    else if c = '\n' then none
    else (looseTail? s).map (· + 1)

/-- The same with a first character that is not blank. -/
def looseLength? : Text → Option Nat
  | [] => none
  | c :: s => if isBlank c then none else (looseTail? s).map (· + 1)

/-- The length of a reserved token at the head of a text. -/
def reservedLength? (s : Text) : Option Nat :=
  (reservedTokens.find? fun token => startsWith token s).map List.length

def replacementLength? (s : Text) : Option Nat :=
  match reservedLength? s with
  | some n => some n
  | none =>
    (after? openMark s).bind fun inside =>
      match tightLength? inside with
      | some n => some (n + 4)
      | none => (looseLength? inside).map (· + 4)

/-- The characters before the first closing braces with a space, when none opens before. -/
def chainLength? : Text → Option Nat
  | [] => none
  | c :: s =>
    if startsWith spacedClose (c :: s) then some 0
    else if startsWith spacedOpen (c :: s) then none
    else (chainLength? s).map (· + 1)

def expressionLength? (s : Text) : Option Nat :=
  (after? spacedOpen s).bind fun inside =>
    (chainLength? inside).bind fun n => if n = 0 then none else some (n + 6)

def referenceLength? (s : Text) : Option Nat :=
  (after? spacedOpen s).bind fun inside =>
    let name := inside.takeWhile isWord
    if name ≠ [] ∧ startsWith spacedClose (inside.dropWhile isWord) then some (name.length + 6)
    else none

/-- The form that reads the text of the given length. -/
def formOf (length? : Text → Option Nat) : Form Text :=
  fun s => (length? s).map fun n => (s.take n, n)

def replacementForm : Form Text := formOf replacementLength?

def expressionForm : Form Text := formOf expressionLength?

def referenceForm : Form Text := formOf referenceLength?

end Crosswalk.Template
