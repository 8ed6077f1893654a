import Crosswalk.Text.Basic
import Crosswalk.Text.Blank
import Crosswalk.Text.Digit

/-!
# Numerals

Whole numbers written in decimal.

* `natText`, `intText`: the digits without leading zeros, after a minus sign for a negative number.
* `padded n width`: at least `width` digits.
* `readInt? s`: reads a sign and digits of any script, with single underscores between digits.
* `leadingInt s`: the number at the head of a text, zero when there is none.
* `leadingCount s`: how many digits that number has.
-/

namespace Crosswalk

open Text

def natText (n : Nat) : Text := Nat.toDigits 10 n

def intText : Int → Text
  | .ofNat n => natText n
  | .negSucc n => '-' :: natText (n + 1)

def padStart (c : Char) (width : Nat) (s : Text) : Text := List.replicate (width - s.length) c ++ s

/-- At least `width` characters, the zeros after the sign. -/
def padded (n : Int) (width : Nat) : Text :=
  if n < 0 then '-' :: padStart '0' (width - 1) (natText n.natAbs)
  else padStart '0' width (natText n.natAbs)

/-- The number with these digits, most significant first. -/
def ofDigits (digits : List Nat) : Nat := digits.foldl (fun n d => 10 * n + d) 0

/-- The sign at the head of a numeral, and the rest. -/
def readSign : Text → Bool × Text
  | '-' :: s => (true, s)
  | '+' :: s => (false, s)
  | s => (false, s)

def signed (negative : Bool) (n : Nat) : Int := if negative then -(n : Int) else n

/-- The digits at the head of a text, and the rest. -/
def readDigits : Text → List Nat × Text
  | [] => ([], [])
  | c :: s =>
    match digitValue? c with
    | some d => ((d :: (readDigits s).1), (readDigits s).2)
    | none => ([], c :: s)

/-- The text without its underscores, each of which must stand between two digits. -/
def dropUnderscores (afterDigit : Bool) : Text → Option Text
  | [] => some []
  | '_' :: s =>
    match s with
    | c :: _ => if afterDigit && isDecimal c then dropUnderscores false s else none
    | [] => none
  | c :: s => (dropUnderscores (isDecimal c) s).map (c :: ·)

/-- The blanks that may surround a numeral: all but the four separators of records. -/
def isNumeralBlank (c : Char) : Bool := isBlank c && !(0x1C ≤ c.toNat && c.toNat ≤ 0x1F)

def trimNumeral (s : Text) : Text := trimOf isNumeralBlank s

/-- The most digits that a whole number may be written with. -/
def maxDigits : Nat := 4300

def readInt? (s : Text) : Option Int :=
  match dropUnderscores false (trimNumeral s) with
  | none => none
  | some t =>
    let (negative, u) := readSign t
    match readDigits u with
    | ([], _) => none
    | (digits, []) =>
      if digits.length ≤ maxDigits then some (signed negative (ofDigits digits)) else none
    | (_, _ :: _) => none

def leadingInt (s : Text) : Int :=
  let (negative, t) := readSign (trimStart s)
  signed negative (ofDigits (readDigits t).1)

/-- The number of digits of the number at the head of a text. -/
def leadingCount (s : Text) : Nat := (readDigits (readSign (trimStart s)).2).1.length

example : readInt? " -1_000 " = some (-1000) := by decide

example : readInt? "1__0" = none := by decide

example : leadingInt "12 px" = 12 := by decide

end Crosswalk
