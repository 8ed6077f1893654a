import Crosswalk.Store.Basic
import Crosswalk.Text.Quote
import Crosswalk.Text.Scan

/-!
# Included mappings

A mapping in xml includes another one by `<include mapping="reference"/>`, which stands for the
content of the other mapping, whose own includes are expanded first.

* `expand room store fallback text`: the text with its includes expanded, where at most `room`
  levels of texts may have includes.
-/

namespace Crosswalk

open Text

/-- Mappings that refer to each other more deeply than the limit allows. -/
inductive Excess where
  | includes
  | bases (name mapper : Text)
  deriving DecidableEq

def Excess.message : Excess → Text
  | .includes => "Too many included mappings or recursive mapping."
  | .bases name mapper =>
    "Mapping \"" ++ name ++ "\": too many base mappers, or a recursive base mapper (\"" ++
      mapper ++ "\")."

namespace Include

def openMark : Text := "<include"

/-- The text up to the first quote mark that the end of the tag follows, on one line, and the
rest. -/
def readReference? (quote : Char) : Text → Option (Text × Text)
  | [] => none
  | c :: s =>
    match if c = quote then after? ['/', '>'] (trimStart s) else none with
    | some rest => some ([], rest)
    | none =>
      if c = '\n' then none else (readReference? quote s).map fun p => (c :: p.1, p.2)

/-- The text without blanks at its start, of which there must be one. -/
def afterBlanks? (s : Text) : Option Text :=
  if s.head?.any isBlank then some (trimStart s) else none

/-- The reference of an include at the head of a text. -/
def form : Form Text := fun s => do
  let t ← after? openMark s
  let u ← afterBlanks? t
  let v ← after? "mapping" u
  match trimStart v with
  | '=' :: w =>
    match trimStart w with
    | q :: x =>
      if isQuoteMark q then
        (readReference? q x).map fun p => (trim p.1, s.length - p.2.length)
      else none
    | [] => none
  | _ => none

/-- The length of a declaration at the head of a text. -/
def declarationForm : Form Unit := fun s => do
  let t ← after? "<?xml" s
  let p ← cutChar? '>' t
  if p.1.getLast? = some '?' then some ((), s.length - p.2.length) else none

/-- The length of a tag of the root at the head of a text. -/
def rootTagForm : Form Unit := fun s => do
  let t ← after? ['<'] s
  let u := match t with | '/' :: u => u | u => u
  let v ← after? "mapping" u
  match v with
  | '>' :: rest => some ((), s.length - rest.length)
  | c :: w =>
    if isBlank c then (cutChar? '>' w).map fun p => ((), s.length - p.2.length) else none
  | [] => none

/-- What stands between the tags of the root of an included mapping. -/
def contentOf (s : Text) : Text := erase rootTagForm (erase declarationForm s)

def hasIncludes (s : Text) : Bool := contains openMark s

/-- The text of an included mapping and the fallback of its own includes; an empty reference leads
nowhere. -/
def target? (store : Store) (fallback : Option Text) (reference : Text) :
    Option (Text × Option Text) :=
  if reference = [] then none
  else
    (store.read reference fallback).map fun content =>
      (content, (store.fallback? reference).or fallback)

/-- A piece of a text with its include expanded by `f`. -/
def expandPiece {ε : Type} (f : Text → Except ε Text) : Piece Text → Except ε Text
  | .char c => .ok [c]
  | .found reference _ => f reference

def expand : Nat → Store → Option Text → Text → Except Excess Text
  | 0, _, _, s => if hasIncludes s then .error .includes else .ok s
  | room + 1, store, fallback, s =>
    if hasIncludes s then
      ((pieces form s).mapM (expandPiece fun reference =>
        match target? store fallback reference with
        | none => .ok []
        | some (content, inner) => (expand room store inner content).map contentOf)).map
        List.flatten
    else .ok s

end Include
end Crosswalk
