import Crosswalk.Number.Binary64
import Crosswalk.Number.Numeral

/-!
# Shortest decimals

Among the decimals that read back as a binary number, the one with the fewest digits; of those
the nearest. A decimal is `digits · 10 ^ power`.

* `shortest m e`: the decimal of `m · 2 ^ e`.
* `Binary64.text`: positional from `0.0001` up to sixteen digits before the point, else with an
  exponent of at least two digits.
* `Binary64.plainText`: the same, but a whole number has neither point nor exponent.
-/

namespace Crosswalk

structure Decimal where
  digits : Nat
  power : Int
  deriving DecidableEq

/-- The fraction times `10 ^ k`. -/
def timesPowerOfTen (q : Rat) (k : Int) : Rat :=
  if k < 0 then q / (powerOfTen (-k).toNat : Int) else q * (powerOfTen k.toNat : Int)

/-- The place of the first digit of a positive fraction: `10 ^ p ≤ q < 10 ^ (p + 1)`. -/
def leadingPlace (q : Rat) : Int :=
  if 1 ≤ q then ((natText q.floor.toNat).length : Int) - 1
  else
    let t := ((q.den : Int) + q.num - 1) / q.num
    if t ≤ 1 then 0 else -((natText (t.toNat - 1)).length : Int)

/-- The fractions that round to `m · 2 ^ e`, in quarters of the unit `2 ^ e`: the two ends, and
whether they belong to it. -/
structure Interval where
  low : Rat
  high : Rat
  closed : Bool

/-- The unit `2 ^ e`. -/
def unitOf (e : Int) : Rat :=
  if e < 0 then mkRat 1 (powerOfTwo (-e).toNat) else mkRat (powerOfTwo e.toNat) 1

def Interval.of (m : Nat) (e : Int) : Interval :=
  let quarter := unitOf (e - 2)
  let below : Nat := if m = powerOfTwo 52 ∧ -1074 < e then 4 * m - 1 else 4 * m - 2
  ⟨quarter * (below : Int), quarter * ((4 * m + 2 : Nat) : Int), m % 2 == 0⟩

def Interval.has (i : Interval) (q : Rat) : Bool :=
  if i.closed then i.low ≤ q && q ≤ i.high else i.low < q && q < i.high

/-- The nearest decimal of `n` digits that lies in the interval. -/
def nearestOf (i : Interval) (q : Rat) (place : Int) (n : Nat) : Option Decimal :=
  let power := place - (n : Int) + 1
  let scaled := timesPowerOfTen q (-power)
  let d := scaled.floor.toNat
  let lower : Decimal := ⟨d, power⟩
  let upper : Decimal := ⟨d + 1, power⟩
  let hasLower := i.has (timesPowerOfTen (d : Int) power)
  let hasUpper := i.has (timesPowerOfTen ((d + 1 : Nat) : Int) power)
  let gap := scaled - (d : Int)
  match hasLower, hasUpper with
  | true, true =>
    if gap < 1 / 2 then some lower
    else if 1 / 2 < gap then some upper
    else if d % 2 = 0 then some lower else some upper
  | true, false => some lower
  | false, true => some upper
  | false, false => none

/-- The same decimal without zeros at its end. -/
def Decimal.dropZeros : Nat → Decimal → Decimal
  | 0, x => x
  | fuel + 1, x =>
    if x.digits % 10 = 0 ∧ x.digits ≠ 0 then dropZeros fuel ⟨x.digits / 10, x.power + 1⟩ else x

/-- Seventeen digits always read back. -/
def shortest (m : Nat) (e : Int) : Decimal :=
  let q := unitOf e * (m : Int)
  let i := Interval.of m e
  let place := leadingPlace q
  match (List.range 17).findSome? fun k => nearestOf i q place (k + 1) with
  | some x => x.dropZeros 20
  | none => ⟨0, 0⟩

/-- An exponent of at least two digits, with its sign. -/
def exponentText (e : Int) : Text :=
  (if e < 0 then '-' else '+') :: padStart '0' 2 (natText e.natAbs)

/-- The digits with a point after the first, and the exponent that restores the value. -/
def Decimal.scientific (digits : Text) (e : Int) : Text :=
  match digits with
  | [] => []
  | d :: rest => d :: ((if rest = [] then [] else '.' :: rest) ++ 'e' :: exponentText e)

def Decimal.text (x : Decimal) : Text :=
  let digits := natText x.digits
  let point : Int := digits.length + x.power
  if point ≤ -4 ∨ 16 < point then scientific digits (point - 1)
  else if point ≤ 0 then '0' :: '.' :: (List.replicate (-point).toNat '0' ++ digits)
  else
    let whole := point.toNat
    if digits.length ≤ whole then
      digits ++ List.replicate (whole - digits.length) '0' ++ ['.', '0']
    else digits.take whole ++ '.' :: digits.drop whole

def Binary64.text : Binary64 → Text
  | .nan => "nan"
  | .infinite negative => if negative then "-inf" else "inf"
  | .finite negative m e =>
    let body : Text := if m = 0 then "0.0" else (shortest m e).text
    if negative then '-' :: body else body

/-- A whole number loses its decimal part. -/
def Binary64.plainText (x : Binary64) : Text :=
  match x.toInt? with
  | some n => intText n
  | none => x.text

example : (Binary64.ofRatio false 1 10).text = "0.1" := by decide +kernel

example : (Binary64.ofRatio true 1 10000000).text = "-1e-07" := by decide +kernel

end Crosswalk
