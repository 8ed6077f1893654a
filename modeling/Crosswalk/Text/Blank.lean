import Crosswalk.Text.Basic

/-!
# Blanks

* `trim s`: `s` without the blanks at its ends.
* `words s`: the runs of non-blank characters.
* `collapse s`: the words of `s` with one space between them.
* `contentLines s`: the trimmed lines of `s` that are not blank.
-/

namespace Crosswalk.Text

/-! ## Algorithm -/

/-- Spaces of every script, line and page breaks, and the four separators of records. -/
def isBlank (c : Char) : Bool :=
  let n := c.toNat
  (0x09 ≤ n && n ≤ 0x0D) || (0x1C ≤ n && n ≤ 0x20) || n == 0x85 || n == 0xA0 || n == 0x1680 ||
    (0x2000 ≤ n && n ≤ 0x200A) || n == 0x2028 || n == 0x2029 || n == 0x202F || n == 0x205F ||
    n == 0x3000

/-- The blanks that end a line. A carriage return before a line feed ends it once more, which
leaves an empty line. -/
def isLineBreak (c : Char) : Bool :=
  let n := c.toNat
  (0x0A ≤ n && n ≤ 0x0D) || (0x1C ≤ n && n ≤ 0x1E) || n == 0x85 || n == 0x2028 || n == 0x2029

def trimStartOf (p : Char → Bool) (s : Text) : Text := s.dropWhile p

def trimEndOf (p : Char → Bool) (s : Text) : Text := (s.reverse.dropWhile p).reverse

def trimOf (p : Char → Bool) (s : Text) : Text := trimEndOf p (trimStartOf p s)

def trimStart (s : Text) : Text := trimStartOf isBlank s

def trimEnd (s : Text) : Text := trimEndOf isBlank s

def trim (s : Text) : Text := trimOf isBlank s

def isBlankText (s : Text) : Bool := s.all isBlank

/-- The runs of characters between the characters of `p`, the empty runs included. -/
def cutsAt (p : Char → Bool) : Text → List Text
  | [] => [[]]
  | c :: s =>
    if p c then [] :: cutsAt p s
    else
      match cutsAt p s with
      | [] => [[c]]
      | run :: runs => (c :: run) :: runs

def words (s : Text) : List Text := (cutsAt isBlank s).filter fun w => w != []

def collapse (s : Text) : Text := joinWith [' '] (words s)

/-- A carriage return, alone or before a line feed, is a line feed. -/
def unifyLines : Text → Text
  | [] => []
  | '\r' :: s =>
    match s with
    | '\n' :: t => '\n' :: unifyLines t
    | t => '\n' :: unifyLines t
  | c :: s => c :: unifyLines s

def contentLines (s : Text) : List Text :=
  ((cutsAt isLineBreak s).map trim).filter fun line => line != []

/-! ## Lemmas -/

theorem isBlank_of_isLineBreak {c : Char} (h : isLineBreak c = true) : isBlank c = true := by
  simp only [isLineBreak, isBlank, Bool.or_eq_true, Bool.and_eq_true, decide_eq_true_eq,
    beq_iff_eq] at *
  omega

example : collapse " a \t\n b " = "a b" := by decide

end Crosswalk.Text
