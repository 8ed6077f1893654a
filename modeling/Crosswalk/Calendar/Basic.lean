import Crosswalk.Number.Numeral

/-!
# Moments

A moment is a day of the calendar, counted on through all years, a time of the day, and a zone
when one is known.

* `daysBefore year`: the days from the first of March of year zero to the one of `year`.
* `Moment.seconds`: the seconds since the start of 1970; without a zone, in universal time.
* `Moment.format`: a moment written letter by letter.
-/

namespace Crosswalk

structure Moment where
  year : Int
  month : Nat
  day : Nat
  hour : Nat
  minute : Nat
  second : Nat
  /-- Minutes before universal time, when the text tells. -/
  zone : Option Int
  deriving DecidableEq

namespace Moment

def isLeap (year : Int) : Bool := year % 4 == 0 && (year % 100 != 0 || year % 400 == 0)

def daysIn (year : Int) (month : Nat) : Nat :=
  if month = 2 then if isLeap year then 29 else 28
  else if month = 4 ∨ month = 6 ∨ month = 9 ∨ month = 11 then 30
  else 31

def isValid (m : Moment) : Bool :=
  1 ≤ m.month && m.month ≤ 12 && 1 ≤ m.day && m.day ≤ daysIn m.year m.month && m.hour < 24 &&
    m.minute < 60 && m.second < 60

/-! ## Counting -/

/-- Years begin in March here, so that a leap day ends its year. -/
def daysBefore (year : Int) : Int := 365 * year + year / 4 - year / 100 + year / 400

/-- The days from the first of March to the first of a month. -/
def daysToMonth (month : Nat) : Int := (153 * ((month + 9) % 12 : Nat) + 2) / 5

/-- The days since the first of January 1970. -/
def dayNumber (m : Moment) : Int :=
  let year := if m.month ≤ 2 then m.year - 1 else m.year
  daysBefore year + daysToMonth m.month + m.day - 1 - 719468

def seconds (m : Moment) : Int :=
  m.dayNumber * 86400 + m.hour * 3600 + m.minute * 60 + m.second - 60 * m.zone.getD 0

/-- From one for Monday to seven for Sunday. -/
def weekday (m : Moment) : Nat := ((m.dayNumber + 3) % 7).toNat + 1

/-! ## Writing -/

def dayNames : List Text :=
  ["Monday", "Tuesday", "Wednesday", "Thursday", "Friday", "Saturday", "Sunday"]

def monthNames : List Text :=
  ["January", "February", "March", "April", "May", "June", "July", "August", "September",
    "October", "November", "December"]

def dayName (m : Moment) : Text := dayNames.getD (m.weekday - 1) []

def monthName (m : Moment) : Text := monthNames.getD (m.month - 1) []

def two (n : Nat) : Text := padded n 2

def zoneText (minutes : Int) : Text :=
  let sign := if minutes < 0 then '-' else '+'
  sign :: (two (minutes.natAbs / 60) ++ ':' :: two (minutes.natAbs % 60))

def isoText (m : Moment) : Text :=
  padded m.year 4 ++ '-' :: two m.month ++ '-' :: two m.day ++ 'T' :: two m.hour ++ ':' ::
    two m.minute ++ ':' :: two m.second ++ (m.zone.map zoneText).getD []

/-- What a letter of a format stands for. -/
def letter? (m : Moment) (c : Char) : Option Text :=
  match c with
  | 'd' => some (two m.day)
  | 'j' => some (natText m.day)
  | 'D' => some (m.dayName.take 3)
  | 'l' => some m.dayName
  | 'N' => some (natText m.weekday)
  | 'm' => some (two m.month)
  | 'n' => some (natText m.month)
  | 'M' => some (m.monthName.take 3)
  | 'F' => some m.monthName
  | 'Y' => some (padded m.year 4)
  | 'y' => some (two (m.year % 100).toNat)
  | 'H' => some (two m.hour)
  | 'G' => some (natText m.hour)
  | 'i' => some (two m.minute)
  | 's' => some (two m.second)
  | 'c' => some m.isoText
  | 'U' => some (intText m.seconds)
  | _ => none

/-- A backslash lets the next character stand for itself; at the end it stands for nothing. -/
def format (m : Moment) : Text → Text
  | [] => []
  | '\\' :: c :: s => c :: format m s
  | ['\\'] => []
  | c :: s => (m.letter? c).getD [c] ++ format m s

example : (Moment.mk 2021 3 5 14 30 0 none).seconds = 1614954600 := by decide

example : (Moment.mk 1600 12 25 0 0 0 none).weekday = 1 := by decide

end Moment
end Crosswalk
