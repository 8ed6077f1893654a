import Crosswalk.Number.Binary64
import Crosswalk.Number.Shortest
import Crosswalk.Number.Reading
import Crosswalk.Text.Case

/-!
# Conversions of a format text

A conversion is a percent sign, flags, a width, a precision and a letter. Numbers are written from
their exact value: a half goes to the even neighbour.

* `Conversion.read?`: the conversion at the head of a text.
* `Conversion.write`: an operand written as the conversion says.
* `Conversion.size`: the characters that the conversion asks for by itself.
-/

namespace Crosswalk

open Text

structure Conversion where
  flags : Text
  width : Nat
  precision : Option Nat
  letter : Char
  deriving DecidableEq

namespace Conversion

/-! ## Reading -/

def isFlag (c : Char) : Bool := c == '-' || c == '+' || c == ' ' || c == '0' || c == '#'

def isLetter (c : Char) : Bool := c ∈ "sdifFeEgGxXoc".toList

/-- The digits after a point. Without digits the point belongs to nothing. -/
def readPrecision (s : Text) : Option (List Nat) × Text :=
  match s with
  | '.' :: t =>
    match readDigits t with
    | ([], _) => (none, s)
    | (digits, rest) => (some digits, rest)
  | _ => (none, s)

/-- The conversion after a percent sign. -/
def read? (s : Text) : Option Conversion :=
  let (digits, rest) := readDigits (s.dropWhile isFlag)
  let (precision, rest) := readPrecision rest
  match rest with
  | c :: _ =>
    if isLetter c then some ⟨s.takeWhile isFlag, ofDigits digits, precision.map ofDigits, c⟩
    else none
  | [] => none

/-- The number of characters of the conversion after a percent sign. -/
def readLength (s : Text) : Nat :=
  s.length - (readPrecision (readDigits (s.dropWhile isFlag)).2).2.length + 1

/-- The greatest precision. A whole number needs three more characters for its sign and mark. -/
def maxPrecision (letter : Char) : Nat :=
  if letter ∈ "dioxX".toList then powerOfTwo 31 - 4 else powerOfTwo 31 - 1

/-- Widths and precisions are written with the digits zero to nine and are not excessive. -/
def isPlain (s : Text) : Bool :=
  match read? s with
  | none => false
  | some c =>
    (s.take (readLength s)).all (fun d => d.toNat < 0x80) && c.width < powerOfTwo 63 &&
      c.precision.all (· ≤ maxPrecision c.letter)

/-! ## Layout -/

def has (c : Conversion) (flag : Char) : Bool := flag ∈ c.flags

/-- A text in the width of the conversion, with `fill` at its start. -/
def layout (c : Conversion) (fill : Char) (sign body : Text) : Text :=
  let size := sign.length + body.length
  if c.has '-' then sign ++ body ++ List.replicate (c.width - size) ' '
  else if fill = ' ' then List.replicate (c.width - size) ' ' ++ sign ++ body
  else sign ++ List.replicate (c.width - size) fill ++ body

def signText (c : Conversion) (negative : Bool) : Text :=
  if negative then ['-'] else if c.has '+' then ['+'] else if c.has ' ' then [' '] else []

/-- Numbers are filled with zeros under the flag `0`. -/
def numberFill (c : Conversion) : Char := if c.has '0' then '0' else ' '

/-- The characters that there must be memory for beside those of the operand. Digits are written
with their precision before they are laid out. -/
def size (c : Conversion) : Nat :=
  if c.letter = 's' ∨ c.letter = 'c' then c.width else max c.width (c.precision.getD 0)

/-! ## Operands -/

def text (c : Conversion) (s : Text) : Text :=
  c.layout ' ' [] (match c.precision with | some p => s.take p | none => s)

/-- The base of the digits and the mark that the flag `#` adds before them. -/
def baseOf (letter : Char) : Nat × Text :=
  if letter = 'x' then (16, "0x")
  else if letter = 'X' then (16, "0X")
  else if letter = 'o' then (8, "0o")
  else (10, [])

def int (c : Conversion) (n : Int) : Text :=
  let (base, mark) := baseOf c.letter
  let digits := padStart '0' (c.precision.getD 1) (Nat.toDigits base n.natAbs)
  let digits := if c.letter = 'X' then digits.map Char.toUpper else digits
  let mark := if c.has '#' then mark else []
  c.layout c.numberFill (c.signText (n < 0) ++ mark) digits

/-- The whole number nearest to a fraction that is not negative, the even one of two. -/
def nearest (q : Rat) : Nat := roundDiv q.num.natAbs q.den

/-- The digits of a fraction with `places` after the point. -/
def fixedText (q : Rat) (places : Nat) (keepPoint : Bool) : Text :=
  let digits := padStart '0' (places + 1) (natText (nearest (timesPowerOfTen q places)))
  let whole := digits.take (digits.length - places)
  let part := digits.drop (digits.length - places)
  whole ++ (if part = [] ∧ keepPoint = false then [] else '.' :: part)

/-- The first digits of a fraction, `places` of them after the leading one, and its place. -/
def leadingDigits (q : Rat) (places : Nat) : Text × Int :=
  if q = 0 then (List.replicate (places + 1) '0', 0)
  else
    let place := leadingPlace q
    let digits := natText (nearest (timesPowerOfTen q (places - place)))
    if digits.length = places + 2 then (digits.take (places + 1), place + 1) else (digits, place)

def scientificText (q : Rat) (places : Nat) (keepPoint : Bool) : Text :=
  match leadingDigits q places with
  | (d :: part, place) =>
    d :: ((if part = [] ∧ keepPoint = false then [] else '.' :: part) ++ 'e' :: exponentText place)
  | ([], _) => []

/-- The digits without zeros at the end of their part after the point. -/
def dropTrailing (s : Text) : Text :=
  if '.' ∈ s then
    let t := trimEndOf (· == '0') s
    trimEndOf (· == '.') t
  else s

/-- The shorter of the two forms: positional when the exponent is at least `-4` and below the
count of digits. -/
def generalText (q : Rat) (precision : Nat) (keepZeros : Bool) : Text :=
  let count := max precision 1
  let place := (leadingDigits q (count - 1)).2
  if -4 ≤ place ∧ place < count then
    let s := fixedText q ((count : Int) - 1 - place).toNat keepZeros
    if keepZeros then s else dropTrailing s
  else
    let s := scientificText q (count - 1) keepZeros
    if keepZeros then s
    else
      match cutLast? 'e' s with
      | some (a, b) => dropTrailing a ++ 'e' :: b
      | none => s

def float (c : Conversion) (x : Binary64) : Text :=
  let kind := c.letter.toLower
  let body : Text :=
    match x.abs.toRat with
    | none => if x.isNan then "nan" else "inf"
    | some q =>
      let precision := c.precision.getD 6
      if kind = 'f' then fixedText q precision (c.has '#')
      else if kind = 'e' then scientificText q precision (c.has '#')
      else generalText q precision (c.has '#')
  let body := if c.letter.isUpper then body.map Char.toUpper else body
  c.layout c.numberFill (c.signText x.isNegative) body

/-- What a conversion writes. -/
inductive Operand where
  | text (s : Text)
  | character (d : Char)
  | int (n : Int)
  | float (x : Binary64)

def write (c : Conversion) : Operand → Text
  | .text s => c.text s
  | .character d => c.layout ' ' [] [d]
  | .int n => c.int n
  | .float x => c.float x

example : (read? "05.1f").map (fun c => c.float (.ofRatio true 1 4)) = some ("-00.2" : Text) := by
  decide +kernel

example : (read? "g").map (fun c => c.float (.ofRatio false 1 100000)) = some ("1e-05" : Text) := by
  decide +kernel

end Conversion
end Crosswalk
