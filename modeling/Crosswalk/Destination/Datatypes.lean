import Crosswalk.Pairs
import Crosswalk.Text.Blank
import Crosswalk.Text.Digit
import Crosswalk.Text.Quote
import Crosswalk.Text.Scan
import Crosswalk.Text.Word
import Crosswalk.Vocabulary.Register

/-!
# Datatypes

A datatype is named in full, by the part after its last colon when no other name ends so, or as a
custom vocabulary by its number or label.

* `Datatypes.canonical d name`: the full name.
* `Datatypes.canonicalize d names`: the full names of a list, without unknown ones and repetitions.
-/

namespace Crosswalk

open Text

structure Datatypes where
  names : List Text
  /-- The identifier of a custom vocabulary with this label. -/
  customId : Text → Option Identifier

def customMark : Text := "customvocab:"

namespace Datatypes

def ofRegister (r : Register) : Datatypes := ⟨r.datatypes, r.customId⟩

/-- The part of a full name that may stand for it: what follows the last colon, unless that is
empty or a number. -/
def shortName? (name : Text) : Option Text :=
  (cutLast? ':' name).bind fun p => if p.2 = [] ∨ p.2.all isDigitSign then none else some p.2

/-- The one name that ends in this short name. -/
def ofShort (d : Datatypes) (short : Text) : Option Text :=
  match (distinct d.names).filter fun n => shortName? n == some short with
  | [name] => some name
  | _ => none

def ofCustom (d : Datatypes) (label : Text) : Option Text :=
  if label = [] then none
  else if label.all isDigitSign then some (customMark ++ label)
  else
    match d.customId label with
    | none => some (customMark ++ label)
    | some id => some (customMark ++ id.text)

def canonical (d : Datatypes) (name : Text) : Option Text :=
  let s := trim name
  match after? customMark s with
  | some label => d.ofCustom (trim (unquote (trim label)))
  | none => if d.names.elem s then some s else d.ofShort s

def canonicalize (d : Datatypes) (names : List Text) : List Text :=
  distinct (names.filterMap d.canonical)

end Datatypes

/-! ## Written names -/

/-- A name starts with a letter or an underscore, and has word characters, colons and hyphens. -/
def isNamePart (c : Char) : Bool := isWord c || c == ':' || c == '-'

def isPlainName : Text → Bool
  | [] => false
  | c :: s => isNameStart c && s.all isNamePart

/-- The length of a quoted label at the head of a text: it is not empty, on one line, and without
the quote mark that encloses it. -/
def quotedLabelLength? : Text → Option Nat
  | q :: s =>
    let inside := s.takeWhile fun c => c != q && c != '\n' && c != '\r'
    if isQuoteMark q && inside != [] && (s.drop inside.length).head? == some q then
      some (inside.length + 2)
    else none
  | [] => none

/-- A datatype as it may stand in a descriptor: a custom vocabulary with a label, which needs no
quotes, or a plain name. -/
def isDatatypeToken (s : Text) : Bool :=
  (match after? customMark s with
    | some label =>
      quotedLabelLength? label == some label.length ||
        (label != [] && label.all fun c => !isQuoteMark c && c != '\n' && c != '\r')
    | none => false) ||
  isPlainName s

/-- A datatype in a list separated by spaces: the label of a custom vocabulary is quoted. -/
def datatypeLength? (s : Text) : Option Nat :=
  match (after? customMark s).bind quotedLabelLength? with
  | some n => some (customMark.length + n)
  | none =>
    match s with
    | c :: t => if isNameStart c then some (1 + (t.takeWhile isNamePart).length) else none
    | [] => none

/-- The datatypes written in a list separated by spaces. -/
def readDatatypes (s : Text) : List Text :=
  readings (fun t => (datatypeLength? t).map fun n => (t.take n, n)) s

example : readDatatypes "literal customvocab:\"A b\"" =
    [("literal" : Text), "customvocab:\"A b\""] := by decide

end Crosswalk
