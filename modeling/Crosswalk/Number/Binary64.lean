/-!
# Binary floating point numbers

A finite number is `± mantissa · 2 ^ exponent` with a mantissa below `2 ^ 53` and an exponent of
at least `-1074`; the mantissa is at least `2 ^ 52` unless the exponent is the least one. The
number nearest to a fraction has an even mantissa when two are equally near.

* `ofRatio`: the number nearest to a fraction.
* `toRat`: the exact value of a finite number.
* `add`, `sub`, `mul`, `div`, `fmod`: the exact result, rounded once.
-/

namespace Crosswalk

inductive Binary64 where
  | nan
  | infinite (negative : Bool)
  | finite (negative : Bool) (mantissa : Nat) (exponent : Int)
  deriving DecidableEq

def powerOfTwo (k : Nat) : Nat := Nat.pow 2 k

def powerOfTen (k : Nat) : Nat := Nat.pow 10 k

/-- The whole number nearest to `num / den`, the even one of two. -/
def roundDiv (num den : Nat) : Nat :=
  let q := num / den
  let r := num % den
  if 2 * r < den then q
  else if den < 2 * r then q + 1
  else if q % 2 = 0 then q else q + 1

namespace Binary64

/-- `num / den` as a count of units `2 ^ e`. -/
def inUnits (num den : Nat) (e : Int) : Nat × Nat :=
  if e < 0 then (num * powerOfTwo (-e).toNat, den) else (num, den * powerOfTwo e.toNat)

/-- The exponent of the number nearest to `num / den`. -/
def exponentFor (num den : Nat) : Int :=
  let e : Int := max ((num.log2 : Int) - den.log2 - 53) (-1074)
  let (n, d) := inUnits num den e
  if n / d < powerOfTwo 53 then e else e + 1

/-- The number nearest to `± num / den`. -/
def ofRatio (negative : Bool) (num den : Nat) : Binary64 :=
  if num = 0 then .finite negative 0 (-1074)
  else
    let e := exponentFor num den
    let (n, d) := inUnits num den e
    let m := roundDiv n d
    let (m, e) := if m = powerOfTwo 53 then (powerOfTwo 52, e + 1) else (m, e)
    if 971 < e then .infinite negative else .finite negative m e

/-- The number nearest to `q`, with the sign of `negative` when `q` is zero. -/
def ofRat (q : Rat) (negative : Bool) : Binary64 :=
  if q = 0 then .finite negative 0 (-1074) else ofRatio (q.num < 0) q.num.natAbs q.den

def ofInt (n : Int) : Binary64 := ofRatio (n < 0) n.natAbs 1

def zero : Binary64 := .finite false 0 (-1074)

/-- The exact value of a finite number. -/
def toRat : Binary64 → Option Rat
  | .finite negative m e =>
    let n : Int := if negative then -(m : Int) else m
    some (if e < 0 then mkRat n (powerOfTwo (-e).toNat) else mkRat (n * powerOfTwo e.toNat) 1)
  | _ => none

def isNegative : Binary64 → Bool
  | .nan => false
  | .infinite negative => negative
  | .finite negative _ _ => negative

def isNan : Binary64 → Bool
  | .nan => true
  | _ => false

def neg : Binary64 → Binary64
  | .nan => .nan
  | .infinite s => .infinite !s
  | .finite s m e => .finite (!s) m e

def abs : Binary64 → Binary64
  | .nan => .nan
  | .infinite _ => .infinite false
  | .finite _ m e => .finite false m e

/-- The whole number nearest to zero among the two around a finite number. -/
def truncate? (x : Binary64) : Option Int := x.toRat.map fun q => Int.tdiv q.num q.den

/-- The value of a finite number that is whole. -/
def toInt? (x : Binary64) : Option Int :=
  x.toRat.bind fun q => if q.den = 1 then some q.num else none

/-! ## Order -/

/-- Numbers of the extended line; a value that is no number has none. -/
inductive Extended where
  | below
  | at (q : Rat)
  | above

def extended? : Binary64 → Option Extended
  | .nan => none
  | .infinite true => some .below
  | .infinite false => some .above
  | .finite s m e => (toRat (.finite s m e)).map .at

def Extended.lt : Extended → Extended → Bool
  | .below, .below => false
  | .below, _ => true
  | .at p, .at q => p < q
  | .at _, .above => true
  | _, _ => false

def Extended.same : Extended → Extended → Bool
  | .below, .below => true
  | .above, .above => true
  | .at p, .at q => p == q
  | _, _ => false

def lt (x y : Binary64) : Bool :=
  match x.extended?, y.extended? with
  | some a, some b => a.lt b
  | _, _ => false

/-- Equality of values: the two zeros are equal, and what is no number equals nothing. -/
def same (x y : Binary64) : Bool :=
  match x.extended?, y.extended? with
  | some a, some b => a.same b
  | _, _ => false

def le (x y : Binary64) : Bool := lt x y || same x y

/-! ## Arithmetic -/

def add : Binary64 → Binary64 → Binary64
  | .nan, _ => .nan
  | _, .nan => .nan
  | .infinite s, .infinite t => if s = t then .infinite s else .nan
  | .infinite s, _ => .infinite s
  | _, .infinite t => .infinite t
  | x@(.finite s _ _), y@(.finite t _ _) =>
    match x.toRat, y.toRat with
    | some p, some q => ofRat (p + q) (s && t)
    | _, _ => .nan

def sub (x y : Binary64) : Binary64 := add x y.neg

def mul : Binary64 → Binary64 → Binary64
  | .nan, _ => .nan
  | _, .nan => .nan
  | .finite s m e, .finite t n f =>
    match toRat (.finite s m e), toRat (.finite t n f) with
    | some p, some q => ofRat (p * q) (s != t)
    | _, _ => .nan
  | x, y => if x.same zero || y.same zero then .nan else .infinite (x.isNegative != y.isNegative)

def div : Binary64 → Binary64 → Binary64
  | .nan, _ => .nan
  | _, .nan => .nan
  | .infinite _, .infinite _ => .nan
  | .infinite s, y => .infinite (s != y.isNegative)
  | x, .infinite t => .finite (x.isNegative != t) 0 (-1074)
  | x, y =>
    match x.toRat, y.toRat with
    | some p, some q =>
      if q = 0 then
        if p = 0 then .nan else .infinite (x.isNegative != y.isNegative)
      else ofRat (p / q) (x.isNegative != y.isNegative)
    | _, _ => .nan

/-- The remainder of a division toward zero, with the sign of the dividend. -/
def fmod (x y : Binary64) : Binary64 :=
  match x, y with
  | .nan, _ => .nan
  | _, .nan => .nan
  | .infinite _, _ => .nan
  | x, .infinite _ => x
  | x, y =>
    match x.toRat, y.toRat with
    | some p, some q =>
      if q = 0 then .nan
      else
        let r := p / q
        ofRat (p - q * (Int.tdiv r.num r.den : Int)) x.isNegative
    | _, _ => .nan

/-- The greatest whole number that is not above. -/
def floor : Binary64 → Binary64
  | .finite s m e =>
    match toRat (.finite s m e) with
    | some q => ofRat q.floor s
    | none => .nan
  | x => x

/-- The least whole number that is not below. -/
def ceil (x : Binary64) : Binary64 := (floor x.neg).neg

example : ofRatio false 1 10 = .finite false 7205759403792794 (-56) := by decide +kernel

example : add (ofRatio false 1 10) (ofRatio false 2 10) = .finite false 5404319552844596 (-54) := by
  decide +kernel

end Binary64
end Crosswalk
