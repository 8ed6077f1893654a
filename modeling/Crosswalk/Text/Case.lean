import Crosswalk.Text.Basic
import Crosswalk.Text.Range
import Crosswalk.Text.CaseTable

/-!
# Upper and lower case

The other case of a letter may be several letters. A capital sigma is the one letter whose lower
case depends on its place: at the end of a word it is a final sigma.
-/

namespace Crosswalk.Text

/-- The other case of a code point by runs of letters. -/
def shiftByRuns : List (Nat × Nat × Nat × Int) → Nat → Option Nat
  | [], _ => none
  | (first, last, step, shift) :: more, n =>
    if n < first then none
    else if n ≤ last && (n - first) % step == 0 then some (n + shift).toNat
    else shiftByRuns more n

def otherCase (runs : List (Nat × Nat × Nat × Int)) (several : List (Nat × List Nat))
    (c : Char) : Text :=
  match several.lookup c.toNat with
  | some letters => letters.map Char.ofNat
  | none =>
    match shiftByRuns runs c.toNat with
    | some n => [Char.ofNat n]
    | none => [c]

/-- Upper case of a letter. -/
def upperOf (c : Char) : Text :=
  if c.toNat < 0x80 then [c.toUpper] else otherCase upperRuns upperSeveral c

/-- Lower case of a letter that is no capital sigma. -/
def lowerOf (c : Char) : Text :=
  if c.toNat < 0x80 then [c.toLower] else otherCase lowerRuns lowerSeveral c

def upper (s : Text) : Text := s.flatMap upperOf

def isCaseIgnorable (c : Char) : Bool := inRanges caseIgnorableRanges c.toNat

/-- Whether the first letter that is not skipped is a cased one. -/
def meetsCased (s : Text) : Bool :=
  match s.dropWhile isCaseIgnorable with
  | [] => false
  | c :: _ => inRanges casedRanges c.toNat

/-- Lower case of a capital sigma that stands after `before`, written backwards, and before
`rest`. -/
def lowerSigma (before rest : Text) : Char :=
  if meetsCased before && !meetsCased rest then 'ς' else 'σ'

def lowerFrom (before : Text) : Text → Text
  | [] => []
  | c :: rest =>
    if c = 'Σ' then lowerSigma before rest :: lowerFrom (c :: before) rest
    else lowerOf c ++ lowerFrom (c :: before) rest

def lower (s : Text) : Text := lowerFrom [] s

example : upper "straße ﬁn" = "STRASSE FIN" := by decide

example : lower "ΣΑΣ İ" = "σας i̇" := by decide

end Crosswalk.Text
