import Crosswalk.Calendar.Basic
import Crosswalk.Text.Digit

/-!
# Reading moments

`Moment.read?` reads the common ways to write a day, with or without a time:

* a year, a year and a month, a full date, with hyphens, slashes or nothing between its parts;
* a date with hyphens, then a time and a zone;
* a month by its name with a day and a year, and a day with a month by its name;
* two numbers and a year between slashes: the month first, unless the first number is too great.
-/

namespace Crosswalk.Moment

open Text

/-- A number of at least `low` and at most `high` digits. -/
def readNumber? (low high : Nat) (s : Text) : Option Nat :=
  if low ≤ s.length ∧ s.length ≤ high ∧ s.all isAsciiDigit then
    some (ofDigits (s.map fun c => c.toNat - 0x30))
  else none

/-- A day of a positive year. -/
def ofDay? (year month day : Nat) : Option Moment :=
  let m : Moment := ⟨year, month, day, 0, 0, 0, none⟩
  if 1 ≤ year ∧ m.isValid then some m else none

def readYear? : Text → Option Nat := readNumber? 4 4

/-- A date written as a year, or with the year first. -/
def readYearFirst? (s : Text) : Option Moment := do
  match cutsAt (· == '-') s with
  | [y] =>
    if y.length = 8 then
      ofDay? (← readYear? (y.take 4)) (← readNumber? 2 2 ((y.drop 4).take 2))
        (← readNumber? 2 2 (y.drop 6))
    else ofDay? (← readYear? y) 1 1
  | [y, m] => ofDay? (← readYear? y) (← readNumber? 2 2 m) 1
  | [y, m, d] => ofDay? (← readYear? y) (← readNumber? 2 2 m) (← readNumber? 2 2 d)
  | _ => none

/-- A date between slashes. -/
def readSlashes? (s : Text) : Option Moment := do
  match cutsAt (· == '/') s with
  | [a, b, c] =>
    if a.length = 4 then ofDay? (← readYear? a) (← readNumber? 2 2 b) (← readNumber? 2 2 c)
    else
      let first ← readNumber? 1 2 a
      let second ← readNumber? 1 2 b
      let year ← readYear? c
      if 12 < first then ofDay? year second first else ofDay? year first second
  | _ => none

/-- A minus sign and a number: a year before the year zero. -/
def readEarlyYear? : Text → Option Moment
  | '-' :: s => (readNumber? 1 4 s).map fun n => ⟨-(n : Int), 1, 1, 0, 0, 0, none⟩
  | _ => none

/-- The number of a month by its name or its first three letters. -/
def readMonthName? (s : Text) : Option Nat :=
  let name := s.map Char.toLower
  (monthNames.findIdx? fun month =>
    let full := month.map Char.toLower
    name == full || name == full.take 3).map (· + 1)

/-- A date with the name of its month. -/
def readNamed? (s : Text) : Option Moment := do
  match words s with
  | [a, b, c] =>
    let year ← readYear? c
    match readMonthName? a with
    | some month => ofDay? year month (← readNumber? 1 2 (trimEndOf (· == ',') b))
    | none => ofDay? year (← readMonthName? b) (← readNumber? 1 2 a)
  | _ => none

/-- Hours and minutes with a colon between them, in minutes. -/
def readMinutes? (s : Text) : Option Int := do
  match cutsAt (· == ':') s with
  | [h, m] =>
    let hours ← readNumber? 2 2 h
    let minutes ← readNumber? 2 2 m
    if hours < 24 ∧ minutes < 60 then some (60 * hours + minutes) else none
  | _ => none

/-- The zone at the end of a time, and the time without it. -/
def readZone? (s : Text) : Option (Text × Option Int) :=
  match cutLast? '+' s, cutLast? '-' s with
  | some (time, zone), _ => (readMinutes? zone).map fun m => (time, some m)
  | none, some (time, zone) => (readMinutes? zone).map fun m => (time, some (-m))
  | none, none =>
    if s.getLast? = some 'Z' then some (s.dropLast, some 0) else some (s, none)

/-- A time after a date. -/
def readTime? (date : Moment) (s : Text) : Option Moment := do
  let (time, zone) ← readZone? s
  let m ← match cutsAt (· == ':') time with
    | [h, i] => some { date with hour := ← readNumber? 2 2 h, minute := ← readNumber? 2 2 i }
    | [h, i, s] =>
      some { date with
        hour := ← readNumber? 2 2 h, minute := ← readNumber? 2 2 i, second := ← readNumber? 2 2 s }
    | _ => none
  if m.isValid then some { m with zone := zone } else none

/-- A full date with hyphens, a `T` or a space, and a time. -/
def readDateTime? (s : Text) : Option Moment :=
  match s.drop 10 with
  | c :: time =>
    if c = 'T' ∨ c = ' ' then
      if (s.take 10).count '-' = 2 then (readYearFirst? (s.take 10)).bind fun m => readTime? m time
      else none
    else none
  | [] => none

def read? (s : Text) : Option Moment :=
  [readYearFirst?, readDateTime?, readSlashes?, readNamed?, readEarlyYear?].findSome? fun f =>
    f (trim s)

example : (read? "25/03/2021").map isoText = some ("2021-03-25T00:00:00" : Text) := by decide

example : read? "202103" = none := by decide

end Crosswalk.Moment
