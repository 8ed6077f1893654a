import Crosswalk.Filter.Core

/-!
# Filters for library formats

Dates, names, coordinates and identifiers as they stand in catalogue records.
-/

namespace Crosswalk.Filter

open Text

/-- The characters of `s` from `i` up to `j`. -/
def span (i j : Nat) (s : Text) : Text := (s.take j).drop i

/-! ## Dates -/

/-- The marks that may stand before a date: a sign, an era, or the blank of a date without one. -/
def isDateMark (c : Char) : Bool := c == '-' || c == '+' || c == 'c' || c == 'd' || c == ' '

def isDateEnd (c : Char) : Bool := "-:T |#".toList.elem c

/-- Digits of a date and a time with the marks between their parts, without what is left open at
the end. -/
def datedText (sign digits : Text) : Text :=
  trimEndOf isDateEnd (sign ++ span 0 4 digits ++ "-" ++ span 4 6 digits ++ "-" ++
    span 6 8 digits ++ "T" ++ span 8 10 digits ++ ":" ++ span 10 12 digits ++ ":" ++
    span 12 14 digits)

/-- A date written in digits. A `u` stands for a digit that is not known. -/
def dateIso (w : Text) : Text :=
  match w with
  | [] => w
  | c :: s =>
    if 'u' ∈ w then w
    else if isDateMark c then datedText (if c = '-' ∨ c = 'c' then ['-'] else []) s
    else if isAsciiDigit c then datedText [] w
    else w

/-- The day, the month and the year of a date with a mark between them. -/
def dateParts (mark : Char) (s : Text) : Text × Text × Text :=
  let parts := (cutsAt (· == mark) s).filter (· != [])
  let year := parts.getD 2 []
  (parts.getD 0 [], parts.getD 1 [], if year.length = 2 then ['2', '0'] ++ year else year)

/-- The mark between the parts of a date: the first character that is no digit. -/
def dateMark? (s : Text) : Option Char := List.find? (fun c => !isDecimal c) s

/-- A day, a month and a year with a mark between them, or in digits alone. -/
def dateRevert : Filter := fun v _ =>
  let s := trim v.first
  match dateMark? s with
  | some mark => do
    let day ← wholeOf (dateParts mark s).1
    let month ← wholeOf (dateParts mark s).2.1
    let year ← wholeOf (dateParts mark s).2.2
    pure (.text (padded year 4 ++ "-" ++ padded month 2 ++ "-" ++ padded day 2))
  | none =>
    let year := if s.length = 6 then ['2', '0'] ++ span 4 6 s else span 4 8 s
    .ok (.text (year ++ "-" ++ span 2 4 s ++ "-" ++ span 0 2 s))

def dateSql (w : Text) : Text :=
  let s := trim w
  span 0 4 s ++ "-" ++ span 4 6 s ++ "-" ++ span 6 8 s ++ " " ++ span 8 10 s ++ ":" ++
    span 10 12 s ++ ":" ++ span 12 14 s

/-! ## Names -/

/-- A text between two marks, or nothing when it is empty. -/
def part (before s after : Text) : Text := if s = [] then [] else before ++ s ++ after

def personKeys : List Text := ["a", "b", "c", "d", "f", "g", "k", "o", "p", "5"]

/-- The name of a person from its subfields. -/
def personName : Filter := fun _ a =>
  let m := a.asKeys personKeys
  let sub := fun (k : Text) => (Pairs.get? k m).getD []
  let dates :=
    if sub "f" ≠ [] then
      (" (" : Text) ++ sub "f" ++ part " ; " (sub "c") [] ++ part " ; " (sub "k") [] ++ ")"
    else if sub "c" ≠ [] then (" (" : Text) ++ sub "c" ++ part " ; " (sub "k") [] ++ ")"
    else part " (" (sub "k") ")"
  .ok (.text (sub "a" ++ part ", " (sub "b") [] ++ part " (" (sub "g") ")" ++
    part ", " (sub "d") [] ++ dates ++ part [' ', '{'] (sub "o") ['}'] ++
    part ", " (sub "p") [] ++ part ", " (sub "5") []))

def organizationKeys : List Text :=
  ["a", "b", "c", "d", "e", "f", "g", "h", "o", "p", "r", "5"]

/-- The name of an organization from its subfields. -/
def organizationName : Filter := fun _ a =>
  let m := a.asKeys organizationKeys
  let sub := fun (k : Text) => (Pairs.get? k m).getD []
  let rejected :=
    if sub "g" ≠ [] then (" (" : Text) ++ sub "g" ++ part " ; " (sub "h") [] ++ ")"
    else part " (" (sub "h") ")"
  let dates :=
    if sub "f" ≠ [] then (" (" : Text) ++ sub "f" ++ part " ; " (sub "c") [] ++ ")"
    else part " (" (sub "c") ")"
  .ok (.text (sub "a" ++ part ", " (sub "b") [] ++ rejected ++ part ", " (sub "d") [] ++
    part ", " (sub "e") [] ++ dates ++ part [' ', '{'] (sub "o") ['}'] ++
    part ", " (sub "p") [] ++ part ", " (sub "r") [] ++ part ", " (sub "5") []))

/-- A trade mark from its subfields. -/
def markName : Filter := fun _ a =>
  let m := a.asKeys ["a", "b", "c"]
  let sub := fun (k : Text) => (Pairs.get? k m).getD []
  .ok (.text (sub "a" ++ part ", " (sub "b") [] ++ part " (" (sub "c") ")"))

/-! ## Identifiers -/

/-- The characters of an identifier, by their value: digits and consonants. -/
def noidAlphabet : Text := "0123456789bcdfghjkmnpqrstvwxz"

/-- The value of a character, zero when it is not in the alphabet. -/
def noidValue (c : Char) : Nat :=
  match noidAlphabet.findIdx? (· == c) with
  | some i => i
  | none => 0

/-- The sum of the values, each times its position, where the first position is `i`. -/
def noidSum (i : Nat) : Text → Nat
  | [] => 0
  | c :: s => noidValue c * i + noidSum (i + 1) s

/-- The character that checks an identifier: the sum of its values by position, modulo the size of
the alphabet, which is a prime number. -/
def noidCheck (s : Text) : Char :=
  noidAlphabet.getD (noidSum 1 s % noidAlphabet.length) '0'

/-- A code with the index it belongs to. -/
def indexed : Filter := fun v a =>
  let arguments := a.asList
  match arguments with
  | [] | [] :: _ => .ok v
  | index :: more =>
    let code := match more with | [] => v.first | code :: _ => code
    .ok (.text (
      if index = "unimarc/a" then ("Unimarc/A : " : Text) ++ code
      else if index = "rameau" then
        ("https://data.bnf.fr/ark:/12148/cb" : Text) ++ code ++ [noidCheck ("cb" ++ code)]
      else index ++ " : " ++ code))

/-! ## Coordinates -/

def hemisphere (c : Text) : Text :=
  if c = "+" ∨ c = "N" then "N"
  else if c = "-" ∨ c = "S" then "S"
  else if c = "W" then "W"
  else if c = "E" then "E"
  else "?"

def coordinates (w : Text) : Text :=
  hemisphere (upper (w.take 1)) ++ " " ++ intText (leadingInt (span 1 4 w)) ++ "°" ++
    intText (leadingInt (span 4 6 w)) ++ "’" ++ intText (leadingInt (span 6 8 w)) ++ "”"

def angle (w : Text) : Text :=
  span 0 2 w ++ "°" ++ span 2 4 w ++ "’" ++ span 4 6 w ++ "”"

/-- Hours, minutes and seconds, without those that are zero; the minutes stay between hours and
seconds. -/
def duration (w : Text) : Text :=
  let hours := leadingInt (trim (span 0 2 w))
  let minutes := leadingInt (trim (span 2 4 w))
  let seconds := leadingInt (trim (span 4 6 w))
  (if hours ≠ 0 then intText hours ++ "h" else []) ++
    (if minutes ≠ 0 then intText minutes ++ "m"
      else if hours ≠ 0 ∧ seconds ≠ 0 then "0m" else []) ++
    (if seconds ≠ 0 then intText seconds ++ "s" else [])

/-! ## The filters by name -/

def libraryFilters : List (Text × Filter) := [
  ("dateIso", ofText dateIso),
  ("dateRevert", dateRevert),
  ("dateSql", ofText dateSql),
  ("isbdName", personName),
  ("isbdNameColl", organizationName),
  ("isbdMark", markName),
  ("unimarcIndex", indexed),
  ("unimarcCoordinates", ofText coordinates),
  ("unimarcCoordinatesHexa", ofText angle),
  ("unimarcTimeHexa", ofText duration)]

example : noidCheck "cb11934455" = 't' := by decide

end Crosswalk.Filter
