/-!
# Texts

A text is the list of its characters, so counts and cuts are in code points.

* `after? mark s`: what follows `mark` at the head of `s`.
* `cut? mark s`: the parts of `s` before and after the first `mark`; they join back to `s`
  (`cut?_eq_some`).
* `split n mark s`: the parts of `s` between at most `n` marks; they join back to `s`
  (`joinWith_split`).
* `replaceAll old new s`: `s` with `new` at every `old`, from left to right.
* `le a b`: `a` comes no later than `b` in the order of code points.
* `ofCode n`: the character of a code.
-/

namespace Crosswalk

/-- The characters are Unicode scalar values. A half of a surrogate pair that stands alone is a code
but no character: no text holds one, and what is said of all texts is said of those without any. -/
abbrev Text := List Char

instance : Coe String Text := ⟨String.toList⟩

namespace Text

/-! ## Algorithm -/

/-- What follows `mark` at the head of the text. -/
def after? : Text → Text → Option Text
  | [], s => some s
  | _ :: _, [] => none
  | m :: mark, c :: s => if m = c then after? mark s else none

def startsWith (mark s : Text) : Bool := (after? mark s).isSome

/-- The parts before and after the first `mark`. -/
def cut? (mark : Text) : Text → Option (Text × Text)
  | [] => (after? mark []).map fun rest => ([], rest)
  | c :: s =>
    match after? mark (c :: s) with
    | some rest => some ([], rest)
    | none => (cut? mark s).map fun p => (c :: p.1, p.2)

def contains (mark s : Text) : Bool := (cut? mark s).isSome

/-- The number of characters before the first `mark`. -/
def find? (mark s : Text) : Option Nat := (cut? mark s).map fun p => p.1.length

/-- The parts before and after the first character that is `c`. -/
def cutChar? (c : Char) : Text → Option (Text × Text)
  | [] => none
  | d :: s => if d = c then some ([], s) else (cutChar? c s).map fun p => (d :: p.1, p.2)

/-- The parts before and after the last character that is `c`. -/
def cutLast? (c : Char) : Text → Option (Text × Text)
  | [] => none
  | d :: s =>
    match cutLast? c s with
    | some (a, b) => some (d :: a, b)
    | none => if d = c then some ([], s) else none

/-- The parts between the marks, cutting at the first `n` marks only. -/
def split : Nat → Text → Text → List Text
  | 0, _, s => [s]
  | n + 1, mark, s =>
    match cut? mark s with
    | none => [s]
    | some (a, b) => a :: split n mark b

/-- The parts between all the marks: a text has no more marks than characters. -/
def splitAll (mark s : Text) : List Text := split s.length mark s

def joinWith (mark : Text) (parts : List Text) : Text := mark.intercalate parts

/-- Every `old` replaced by `new`, from left to right. An empty `old` stands before each
character and at the end. -/
def replaceAll (old new s : Text) : Text :=
  if old = [] then new ++ s.flatMap fun c => c :: new else joinWith new (splitAll old s)

/-- The part after the last `c`, or the whole text. -/
def afterLast (c : Char) (s : Text) : Text :=
  match cutLast? c s with
  | some (_, b) => b
  | none => s

/-- The order of words: the first place where two texts differ decides, and the start of a text
comes before it. -/
def le : Text → Text → Bool
  | [], _ => true
  | _ :: _, [] => false
  | c :: a, d :: b => c.toNat < d.toNat || (c == d && le a b)

/-- The character of a code; the replacement character stands for a half of a surrogate pair. -/
def ofCode (n : Nat) : Char := if n.isValidChar then Char.ofNat n else '\uFFFD'

/-! ## Lemmas -/

theorem after?_eq_some {mark s rest : Text} : after? mark s = some rest ↔ s = mark ++ rest := by
  induction mark generalizing s with
  | nil => simp [after?]
  | cons m mark ih =>
    cases s with
    | nil => simp [after?]
    | cons c s =>
      by_cases h : m = c
      · simp [after?, h, ih]
      · simp [after?, h, Ne.symm h]

theorem cut?_eq_some {mark s a b : Text} (h : cut? mark s = some (a, b)) :
    s = a ++ mark ++ b := by
  induction s generalizing a with
  | nil =>
    simp only [cut?, Option.map_eq_some_iff] at h
    obtain ⟨rest, hr, he⟩ := h
    have hs := after?_eq_some.1 hr
    simp_all
  | cons c s ih =>
    simp only [cut?] at h
    split at h
    · next rest hr =>
      have hs := after?_eq_some.1 hr
      simp_all
    · simp only [Option.map_eq_some_iff] at h
      obtain ⟨⟨a', b'⟩, hp, he⟩ := h
      obtain ⟨rfl, rfl⟩ := Prod.mk.inj he
      simp [ih hp]

@[simp] theorem joinWith_singleton (mark s : Text) : joinWith mark [s] = s := by
  simp [joinWith, List.intercalate]

theorem joinWith_cons (mark a : Text) {parts : List Text} (h : parts ≠ []) :
    joinWith mark (a :: parts) = a ++ mark ++ joinWith mark parts := by
  cases parts with
  | nil => exact absurd rfl h
  | cons b parts => simp [joinWith, List.intercalate, List.intersperse]

theorem split_ne_nil (n : Nat) (mark s : Text) : split n mark s ≠ [] := by
  cases n with
  | zero => simp [split]
  | succ n =>
    simp only [split]
    split <;> simp

theorem joinWith_split (n : Nat) (mark s : Text) : joinWith mark (split n mark s) = s := by
  induction n generalizing s with
  | zero => simp [split]
  | succ n ih =>
    simp only [split]
    split
    · simp
    · next a b h => rw [joinWith_cons mark a (split_ne_nil n mark b), ih, ← cut?_eq_some h]

theorem length_split (n : Nat) (mark s : Text) : (split n mark s).length ≤ n + 1 := by
  induction n generalizing s with
  | zero => simp [split]
  | succ n ih =>
    simp only [split]
    split
    · simp
    · next a b h => simpa using ih b

protected theorem le_refl (a : Text) : le a a = true := by
  induction a with
  | nil => rfl
  | cons c a ih => simp [le, ih]

protected theorem le_total (a b : Text) : (le a b || le b a) = true := by
  induction a generalizing b with
  | nil => simp [le]
  | cons c a ih =>
    cases b with
    | nil => simp [le]
    | cons d b =>
      by_cases h : c = d
      · subst h
        simpa [le] using ih b
      · have hn : c.toNat ≠ d.toNat := fun e => h (Char.toNat_inj.1 e)
        simp only [le, Bool.or_eq_true, decide_eq_true_eq]
        omega

end Text
end Crosswalk
