import Crosswalk.Json.Reader
import Crosswalk.Proofs.Text.Blank

/-!
# Numbers by their digits

A number is known by its text, whatever follows the digits:

    natText i ++ a = natText j ++ b → i = j ∧ a = b                          (natText_append)
    intText m ++ a = intText n ++ b → m = n ∧ a = b                          (intText_append)

unless `a` or `b` starts with a digit. The codes of characters, in base sixteen, have a fixed width
(`hexText_injective`).
-/

namespace Crosswalk

open Text

/-- A text that goes on with no digit. -/
def Undigited (s : Text) : Prop := s.head?.all (fun c => !c.isDigit) = true

theorem undigited_cons {c : Char} (hc : c.isDigit = false) (s : Text) : Undigited (c :: s) := by
  simp [Undigited, hc]

/-! ## Base ten -/

theorem isDigit_natText {i : Nat} {c : Char} (h : c ∈ natText i) : c.isDigit = true :=
  Nat.isDigit_of_mem_toDigits (by decide) (by decide) h

theorem natText_injective {i j : Nat} (h : natText i = natText j) : i = j := by
  have := congrArg (fun ds => Nat.ofDigitChars 10 ds 0) h
  simpa [natText] using this

theorem natText_eq (i : Nat) : ∃ d ds, natText i = d :: ds ∧ d.isDigit = true := by
  obtain ⟨d, ds, h⟩ := List.exists_cons_of_ne_nil (Nat.toDigits_ne_nil : Nat.toDigits 10 i ≠ [])
  exact ⟨d, ds, h, isDigit_natText (i := i) (by rw [natText, h]; exact List.mem_cons_self)⟩

theorem takeWhile_natText (i : Nat) {a : Text} (ha : Undigited a) :
    (natText i ++ a).takeWhile Char.isDigit = natText i := by
  have hnone : a.takeWhile Char.isDigit = [] := by
    cases a with
    | nil => rfl
    | cons c a =>
      have hc : c.isDigit = false := by simpa [Undigited] using ha
      rw [List.takeWhile_cons_of_neg (by rw [hc]; decide)]
  rw [List.takeWhile_append_of_pos fun d hd => isDigit_natText hd, hnone, List.append_nil]

theorem natText_append {i j : Nat} {a b : Text} (ha : Undigited a) (hb : Undigited b)
    (h : natText i ++ a = natText j ++ b) : i = j ∧ a = b := by
  have hij : natText i = natText j := by
    rw [← takeWhile_natText i ha, h, takeWhile_natText j hb]
  rw [hij] at h
  exact ⟨natText_injective hij, List.append_cancel_left h⟩

/-- A negative number starts with its sign, any other one with a digit. -/
theorem intText_append {m n : Int} {a b : Text} (ha : Undigited a) (hb : Undigited b)
    (h : intText m ++ a = intText n ++ b) : m = n ∧ a = b := by
  have hsign : ∀ (i : Nat) (s t : Text), natText i ++ s ≠ '-' :: t := by
    intro i s t e
    obtain ⟨d, ds, hd, hdigit⟩ := natText_eq i
    rw [hd] at e
    rw [(List.cons.inj e).1] at hdigit
    exact absurd hdigit (by decide)
  cases m with
  | ofNat i =>
    cases n with
    | ofNat j =>
      obtain ⟨rfl, rfl⟩ := natText_append ha hb h
      exact ⟨rfl, rfl⟩
    | negSucc j => exact absurd h (hsign i a _)
  | negSucc i =>
    cases n with
    | ofNat j => exact absurd h.symm (hsign j b _)
    | negSucc j =>
      obtain ⟨hij, rfl⟩ := natText_append ha hb (List.cons.inj h).2
      obtain rfl : i = j := Nat.succ.inj hij
      exact ⟨rfl, rfl⟩

/-! ## Reading what is written -/

theorem digitValue?_digitChar : ∀ d, d < 10 → digitValue? (Nat.digitChar d) = some d := by decide

theorem isWord_of_isDigit {c : Char} (h : c.isDigit = true) : isWord c = true := by
  have hrange : 0x30 ≤ c.toNat ∧ c.toNat ≤ 0x39 := by
    simp only [Char.isDigit, ge_iff_le, Bool.and_eq_true, decide_eq_true_eq,
      UInt32.le_iff_toNat_le] at h
    exact h
  simp [isWord, isAsciiWord, hrange]

theorem readDigits_concat {s : Text} {c : Char} {ds : List Nat} {d : Nat}
    (h : readDigits s = (ds, [])) (hc : digitValue? c = some d) :
    readDigits (s ++ [c]) = (ds ++ [d], []) := by
  induction s generalizing ds with
  | nil =>
    obtain rfl : [] = ds := congrArg Prod.fst h
    simp [readDigits, hc]
  | cons e s ih =>
    rw [readDigits] at h
    cases he : digitValue? e with
    | none =>
      rw [he] at h
      cases congrArg Prod.snd h
    | some x =>
      rw [he] at h
      have hsnd : (readDigits s).2 = [] := congrArg Prod.snd h
      have hrest : readDigits s = ((readDigits s).1, []) := Prod.ext rfl hsnd
      obtain rfl : x :: (readDigits s).1 = ds := congrArg Prod.fst h
      rw [List.cons_append, readDigits, he]
      simp [ih hrest]

/-- The digits of a number are read back. -/
theorem readDigits_natText (n : Nat) :
    ∃ ds, readDigits (natText n) = (ds, []) ∧ ofDigits ds = n ∧ ds.length = (natText n).length := by
  unfold natText
  induction n using Nat.base_induction 10 (by decide) with
  | single d hd =>
    refine ⟨[d], ?_, ?_, ?_⟩
    · rw [Nat.toDigits_of_lt_base hd]
      simp [readDigits, digitValue?_digitChar d hd]
    · simp [ofDigits]
    · rw [Nat.toDigits_of_lt_base hd]
      rfl
  | digit n d hd hn ih =>
    obtain ⟨ds, hread, hvalue, hlength⟩ := ih
    have hdigits : Nat.toDigits 10 (10 * n + d) = Nat.toDigits 10 n ++ [Nat.digitChar d] := by
      rw [← Nat.toDigits_append_toDigits (by decide) hn hd, Nat.toDigits_of_lt_base hd]
    refine ⟨ds ++ [d], ?_, ?_, ?_⟩
    · rw [hdigits]
      exact readDigits_concat hread (digitValue?_digitChar d hd)
    · unfold ofDigits at hvalue ⊢
      rw [List.foldl_append, hvalue]
      rfl
    · rw [hdigits, List.length_append, List.length_append, hlength]
      rfl

/-- A whole number is read back from the head of its text, however many digits it has. -/
theorem leadingInt_intText (n : Int) :
    leadingInt (intText n) = n ∧ leadingCount (intText n) = (natText n.natAbs).length := by
  obtain ⟨ds, hread, hvalue, hlength⟩ := readDigits_natText n.natAbs
  have hsign : readSign (trimStart (intText n)) = (decide (n < 0), natText n.natAbs) := by
    cases n with
    | ofNat k =>
      obtain ⟨d, rest, hd, hdigit⟩ := natText_eq k
      have hblank : isBlank d = false := not_isBlank_of_isWord (isWord_of_isDigit hdigit)
      have hhead : readSign (d :: rest) = (false, d :: rest) := by
        unfold readSign
        split
        · next h =>
          obtain ⟨rfl, -⟩ := List.cons.inj h
          cases hdigit
        · next h =>
          obtain ⟨rfl, -⟩ := List.cons.inj h
          cases hdigit
        · rfl
      have hnat : decide (Int.ofNat k < 0) = false := by simp
      rw [hnat, intText, Int.natAbs_ofNat', hd, trimStart, trimStartOf,
        List.dropWhile_cons_of_neg (by simp [hblank]), hhead]
    | negSucc k =>
      have hneg : decide (Int.negSucc k < 0) = true := decide_eq_true (Int.negSucc_lt_zero k)
      rw [hneg, intText, trimStart, trimStartOf, List.dropWhile_cons_of_neg (by decide)]
      rfl
  constructor
  · rw [leadingInt, hsign]
    dsimp only
    rw [hread, hvalue, signed]
    split <;> rename_i hn <;> simp at hn <;> omega
  · rw [leadingCount, hsign, hread, hlength]

/-! ## Base sixteen -/

/-- The number that digits in base sixteen write. -/
def readSixteen (s : Text) : Nat := s.foldl (fun n c => 16 * n + (Json.hexValue? c).getD 0) 0

theorem readSixteen_concat (s : Text) (c : Char) :
    readSixteen (s ++ [c]) = 16 * readSixteen s + (Json.hexValue? c).getD 0 :=
  List.foldl_append

theorem hexValue?_digitChar : ∀ d, d < 16 → Json.hexValue? (Nat.digitChar d) = some d := by
  decide

theorem readSixteen_toDigits (n : Nat) : readSixteen (Nat.toDigits 16 n) = n := by
  induction n using Nat.base_induction 16 (by decide) with
  | single d hd =>
    rw [Nat.toDigits_of_lt_base hd, ← List.nil_append [_], readSixteen_concat,
      hexValue?_digitChar d hd]
    exact Nat.zero_add d
  | digit n d hd hn ih =>
    rw [← Nat.toDigits_append_toDigits (by decide) hn hd, Nat.toDigits_of_lt_base hd,
      readSixteen_concat, ih, hexValue?_digitChar d hd]
    rfl

theorem readSixteen_padStart (width : Nat) (s : Text) :
    readSixteen (padStart '0' width s) = readSixteen s := by
  have hzeros : ∀ k : Nat, readSixteen (List.replicate k '0' ++ s) = readSixteen s := by
    intro k
    induction k with
    | zero => rfl
    | succ k ih => exact ih
  exact hzeros _

theorem hexText_injective {m n width : Nat}
    (h : Value.hexText m width = Value.hexText n width) : m = n := by
  have hread : ∀ k, readSixteen (Value.hexText k width) = k := fun k =>
    (readSixteen_padStart width _).trans (readSixteen_toDigits k)
  rw [← hread m, h, hread n]

theorem isSome_hexValue?_of_mem_toDigits {n : Nat} {c : Char} (h : c ∈ Nat.toDigits 16 n) :
    (Json.hexValue? c).isSome = true := by
  induction n using Nat.base_induction 16 (by decide) with
  | single d hd =>
    rw [Nat.toDigits_of_lt_base hd, List.mem_singleton] at h
    rw [h, hexValue?_digitChar d hd]
    rfl
  | digit n d hd hn ih =>
    rw [← Nat.toDigits_append_toDigits (by decide) hn hd, Nat.toDigits_of_lt_base hd,
      List.mem_append, List.mem_singleton] at h
    rcases h with h | h
    · exact ih h
    · rw [h, hexValue?_digitChar d hd]
      rfl

theorem isSome_hexValue?_of_mem_hexText {n width : Nat} {c : Char}
    (h : c ∈ Value.hexText n width) : (Json.hexValue? c).isSome = true := by
  rcases List.mem_append.1 h with h | h
  · rw [List.eq_of_mem_replicate h]
    rfl
  · exact isSome_hexValue?_of_mem_toDigits h

/-- A number below `16 ^ 4` has four digits. -/
theorem length_hexText {n : Nat} (hn : n < 65536) : (Value.hexText n 4).length = 4 := by
  have hlength : (Nat.toDigits 16 n).length ≤ 4 :=
    (Nat.length_toDigits_le_iff (by decide) (by decide)).2 hn
  rw [Value.hexText, padStart, List.length_append, List.length_replicate]
  omega

end Crosswalk
