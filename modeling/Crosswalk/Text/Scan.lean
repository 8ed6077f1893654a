import Crosswalk.Text.Basic

/-!
# Forms inside a text

A form reads the head of a text: it gives what it read and how many characters it took, at least
one. `pieces form s` cuts `s` into the places where the form reads something, leftmost first, and
the single characters between them. The pieces join back to `s` (`flatten_pieces`).
-/

namespace Crosswalk.Text

/-! ## Algorithm -/

abbrev Form (α : Type) := Text → Option (α × Nat)

inductive Piece (α : Type) where
  | char (c : Char)
  | found (value : α) (text : Text)
  deriving DecidableEq

def Piece.text {α : Type} : Piece α → Text
  | .char c => [c]
  | .found _ t => t

/-- The pieces after `skip` characters that belong to the last place found. -/
def piecesFrom {α : Type} (form : Form α) : Nat → Text → List (Piece α)
  | _, [] => []
  | skip + 1, _ :: s => piecesFrom form skip s
  | 0, c :: s =>
    match form (c :: s) with
    | some (value, n + 1) => .found value (c :: s.take n) :: piecesFrom form n s
    | _ => .char c :: piecesFrom form 0 s

def pieces {α : Type} (form : Form α) (s : Text) : List (Piece α) := piecesFrom form 0 s

def Piece.found? {α : Type} : Piece α → Option α
  | .char _ => none
  | .found value _ => some value

/-- What the form reads, from left to right. -/
def readings {α : Type} (form : Form α) (s : Text) : List α :=
  (pieces form s).filterMap Piece.found?

/-- The text with `f` of each reading in its place. -/
def substitute {α : Type} (form : Form α) (f : α → Text) (s : Text) : Text :=
  (pieces form s).flatMap fun
    | .char c => [c]
    | .found value _ => f value

/-- The text without the places that the form reads. -/
def erase {α : Type} (form : Form α) (s : Text) : Text := substitute form (fun _ => []) s

/-! ## Lemmas -/

theorem flatten_piecesFrom {α : Type} (form : Form α) (skip : Nat) (s : Text) :
    (piecesFrom form skip s).flatMap Piece.text = s.drop skip := by
  induction s generalizing skip with
  | nil => simp [piecesFrom]
  | cons c s ih =>
    cases skip with
    | succ skip => simp [piecesFrom, ih]
    | zero =>
      simp only [piecesFrom, List.drop_zero]
      split
      · simp [Piece.text, ih]
      · simp [Piece.text, ih]

theorem flatten_pieces {α : Type} (form : Form α) (s : Text) :
    (pieces form s).flatMap Piece.text = s := flatten_piecesFrom form 0 s

end Crosswalk.Text
