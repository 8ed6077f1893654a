import Crosswalk.Text.Basic

/-!
# Quotes

A text is quoted when it stands between two equal quote marks. Reading a text from left to right,
a quote mark opens a quoted part that lasts until the same mark.

* `unquote s`: a quoted text without its marks, any other text unchanged.
* `Quote.step`: the mark that is open after one more character.
* `cutOutside? mark s`: the parts around the first `mark` outside quotes; they join back to `s`
  around it (`cutOutsideFrom?_eq_some`).
-/

namespace Crosswalk.Text

/-! ## Algorithm -/

def isQuoteMark (c : Char) : Bool := c == '\'' || c == '"'

def isQuoted (s : Text) : Bool :=
  match s with
  | q :: rest => isQuoteMark q && rest.getLast? == some q
  | [] => false

def unquote (s : Text) : Text := if isQuoted s then (s.drop 1).dropLast else s

/-- The mark that is open after `c`, if any. -/
def Quote.step (opened : Option Char) (c : Char) : Option Char :=
  match opened with
  | some q => if c = q then none else some q
  | none => if isQuoteMark c then some c else none

/-- The mark that is open at the end of the text. -/
def Quote.after (opened : Option Char) (s : Text) : Option Char := s.foldl Quote.step opened

/-- Every mark that is opened is closed. -/
def Quote.paired (s : Text) : Bool := (Quote.after none s).isNone

/-- The parts around the first `mark` outside quotes, where `opened` is open at first. -/
def cutOutsideFrom? (mark : Char) (opened : Option Char) : Text → Option (Text × Text)
  | [] => none
  | c :: s =>
    if opened.isNone && c == mark then some ([], s)
    else (cutOutsideFrom? mark (Quote.step opened c) s).map fun p => (c :: p.1, p.2)

def cutOutside? (mark : Char) (s : Text) : Option (Text × Text) := cutOutsideFrom? mark none s

/-- The parts around the last `mark` outside quotes, where `opened` is open at first. -/
def cutLastOutsideFrom? (mark : Char) (opened : Option Char) : Text → Option (Text × Text)
  | [] => none
  | c :: s =>
    match cutLastOutsideFrom? mark (Quote.step opened c) s with
    | some (a, b) => some (c :: a, b)
    | none => if opened.isNone && c == mark then some ([], s) else none

def cutLastOutside? (mark : Char) (s : Text) : Option (Text × Text) :=
  cutLastOutsideFrom? mark none s

/-! ## Lemmas -/

theorem Quote.after_append (opened : Option Char) (s t : Text) :
    Quote.after opened (s ++ t) = Quote.after (Quote.after opened s) t := by
  simp [Quote.after]

theorem cutOutsideFrom?_eq_some {mark : Char} {opened : Option Char} {s a b : Text}
    (h : cutOutsideFrom? mark opened s = some (a, b)) : s = a ++ mark :: b := by
  induction s generalizing opened a with
  | nil => simp [cutOutsideFrom?] at h
  | cons c s ih =>
    simp only [cutOutsideFrom?] at h
    split at h
    · next hc =>
      simp only [Bool.and_eq_true, beq_iff_eq] at hc
      simp_all
    · simp only [Option.map_eq_some_iff] at h
      obtain ⟨⟨a', b'⟩, hp, he⟩ := h
      obtain ⟨rfl, rfl⟩ := Prod.mk.inj he
      simp [ih hp]

example : unquote "'a\"'" = "a\"" := by decide

example : cutOutside? '~' "'~'~b" = some (['\'', '~', '\''], ['b']) := by decide

end Crosswalk.Text
