import Crosswalk.Number.Binary64
import Crosswalk.Number.Numeral
import Crosswalk.Text.Case

/-!
# Reading numbers

* `readFloat? s`: a sign, digits with a point among them, and an exponent; or a name of what is
  infinite or no number. Blanks may surround it and single underscores stand between its digits.
* `Binary64.ofDecimal`: the number nearest to `digits · 10 ^ power`.
-/

namespace Crosswalk

open Text

/-- Beyond `10 ^ 400` every number is infinite and below `10 ^ -400` it is zero. -/
def Binary64.ofDecimal (negative : Bool) (digits : Nat) (power : Int) : Binary64 :=
  if digits = 0 then .finite negative 0 (-1074)
  else
    let place := ((natText digits).length : Int) + power
    if 400 < place then .infinite negative
    else if place < -400 then .finite negative 0 (-1074)
    else if power < 0 then .ofRatio negative digits (powerOfTen (-power).toNat)
    else .ofRatio negative (digits * powerOfTen power.toNat) 1

/-- The exponent at the end of a number: nothing, or a mark, a sign and digits. -/
def readExponent? : Text → Option Int
  | [] => some 0
  | c :: s =>
    if c = 'e' ∨ c = 'E' then
      let (negative, t) := readSign s
      match readDigits t with
      | ([], _) => none
      | (digits, []) => some (signed negative (ofDigits digits))
      | (_, _ :: _) => none
    else none

/-- A number without sign: digits, a point and digits, then an exponent. -/
def readUnsigned? (negative : Bool) (s : Text) : Option Binary64 :=
  let (whole, rest) := readDigits s
  let (part, rest) :=
    match rest with
    | '.' :: t => readDigits t
    | t => ([], t)
  if whole = [] ∧ part = [] then none
  else
    (readExponent? rest).map fun e =>
      .ofDecimal negative (ofDigits (whole ++ part)) (e - part.length)

def readFloat? (s : Text) : Option Binary64 :=
  match dropUnderscores false (trimNumeral s) with
  | none => none
  | some t =>
    let (negative, u) := readSign t
    let name := u.map Char.toLower
    if name = "inf" ∨ name = "infinity" then some (.infinite negative)
    else if name = "nan" then some .nan
    else readUnsigned? negative u

example : readFloat? " 1_0.5e-1 " = some (.ofRatio false 21 20) := by decide +kernel

example : readFloat? "1e" = none := by decide

end Crosswalk
