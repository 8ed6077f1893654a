import Crosswalk.Number.Format
import Crosswalk.Text.Digit

/-!
# Numbers of XPath

* `readNumber s`: the number that a text writes, or what is no number.
* `numberText x`: a number as a text. A whole number of up to ten digits has no point; others have
  fifteen or sixteen digits, without zeros at the end.
-/

namespace Crosswalk.XPath

open Text Binary64

/-! ## Reading -/

def isBlank (c : Char) : Bool := c == ' ' || c == '\t' || c == '\n' || c == '\r'

def trimBlanks (s : Text) : Text := trimOf isBlank s

def digits (s : Text) : List Nat × Text :=
  ((s.takeWhile isAsciiDigit).filterMap digitValue?, s.dropWhile isAsciiDigit)

/-- The digits as a number, rounded after each one. -/
def accumulate (ds : List Nat) : Binary64 :=
  ds.foldl (fun x (d : Nat) => (x.mul (.ofInt 10)).add (.ofInt d)) .zero

def powerOfTen (n : Nat) : Binary64 := .ofDecimal false 1 n

/-- Digits of a fraction that count after its leading zeros. -/
def maxPlaces : Nat := 20

def fraction (ds : List Nat) : Binary64 :=
  let zeros := (ds.takeWhile (· == 0)).length
  let kept := (ds.drop zeros).take maxPlaces
  (accumulate kept).div (powerOfTen (zeros + kept.length))

/-- An exponent after its mark; the digits may be left out. -/
def readExponent (s : Text) : Int × Text :=
  match s with
  | c :: t =>
    if c = 'e' ∨ c = 'E' then
      let (negative, u) := readSign t
      let (ds, rest) := digits u
      (signed negative (ofDigits ds), rest)
    else (0, s)
  | [] => (0, s)

def scale (x : Binary64) (e : Int) : Binary64 :=
  x.mul (.ofDecimal false 1 (max (-400) (min e 400)))

/-- A number without sign at the head of a text, and the rest. -/
def readUnsigned? (s : Text) : Option (Binary64 × Text) :=
  let (whole, rest) := digits s
  match rest with
  | '.' :: t =>
    let (part, rest) := digits t
    if whole = [] ∧ part = [] then none
    else
      let (e, rest) := readExponent rest
      some (scale ((accumulate whole).add (fraction part)) e, rest)
  | _ =>
    if whole = [] then none
    else
      let (e, rest) := readExponent rest
      some (scale (accumulate whole) e, rest)

/-- Blanks may surround a number, but none follows its sign. -/
def readNumber (s : Text) : Binary64 :=
  let t := trimBlanks s
  let (negative, u) := match t with | '-' :: u => (true, u) | u => (false, u)
  match readUnsigned? u with
  | some (x, []) => if negative then x.neg else x
  | _ => .nan

/-! ## Writing -/

/-- Fifteen digits in all, one of them before the point. -/
def scientificForm (q : Rat) : Text :=
  match cutLast? 'e' (Conversion.scientificText q 14 false) with
  | some (a, b) => Conversion.dropTrailing a ++ 'e' :: b
  | none => []

def positionalForm (q : Rat) : Text :=
  let place := leadingPlace q
  let places := if 0 < place then 14 - place else 15 - min 0 (place + 1)
  Conversion.dropTrailing (Conversion.fixedText q places.toNat false)

def numberText (x : Binary64) : Text :=
  match x with
  | .nan => "NaN"
  | .infinite negative => if negative then "-Infinity" else "Infinity"
  | x =>
    let sign : Text := if x.isNegative then ['-'] else []
    match x.toInt?, x.abs.toRat with
    | some n, some q =>
      if -0x80000000 < n ∧ n < 0x7fffffff then intText n
      else sign ++ (if 1000000000 < q then scientificForm q else positionalForm q)
    | none, some q =>
      sign ++ (if 1000000000 < q ∨ q < 1 / 100000 then scientificForm q else positionalForm q)
    | _, none => []

example : numberText (.ofRatio true 1 2) = "-0.5" := by decide +kernel

end Crosswalk.XPath
