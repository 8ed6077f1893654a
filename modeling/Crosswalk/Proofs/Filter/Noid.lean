import Crosswalk.Filter.Library
import Mathlib.Data.Nat.ModEq
import Mathlib.Tactic.NormNum.Prime
import Mathlib.Tactic.Ring

/-!
# Check characters

The check character of an identifier stands for the sum of its values, each times its position,
modulo the 29 characters of the alphabet. As 29 is a prime number, two products of a value and a
position differ unless the position is a multiple of it:

    noidValue c * k ≡ noidValue d * k [MOD 29] ↔ c = d ∨ 29 ∣ k            (noidValue_mul_modEq_iff)

One character in the place of another adds such a difference to the sum, at its position. Two
characters that change places add one too, at the distance between them. So both errors are seen
everywhere but at multiples of 29 (`noidCheck_detects`).
-/

namespace Crosswalk.Filter

open Text

/-! ## Values -/

/-- A character stands in the alphabet at its value. -/
theorem getElem?_noidValue {c : Char} (hc : c ∈ noidAlphabet) :
    noidAlphabet[noidValue c]? = some c := by
  unfold noidValue
  cases hindex : noidAlphabet.findIdx? (· == c) with
  | none => exact absurd (List.findIdx?_eq_none_iff.1 hindex c hc) (by simp)
  | some i =>
    obtain ⟨hlt, hget, -⟩ := List.findIdx?_eq_some_iff_getElem.1 hindex
    dsimp only
    rw [List.getElem?_eq_getElem hlt, eq_of_beq hget]

theorem noidValue_lt {c : Char} (hc : c ∈ noidAlphabet) : noidValue c < 29 :=
  (List.getElem?_eq_some_iff.1 (getElem?_noidValue hc)).1

theorem noidValue_inj {c d : Char} (hc : c ∈ noidAlphabet) (hd : d ∈ noidAlphabet) :
    noidValue c = noidValue d ↔ c = d := by
  constructor
  · intro h
    have hsome := getElem?_noidValue hc
    rw [h, getElem?_noidValue hd] at hsome
    exact (Option.some.inj hsome).symm
  · exact congrArg noidValue

/-- A position that is no multiple of the size of the alphabet tells its characters apart. -/
theorem noidValue_mul_modEq_iff {c d : Char} (hc : c ∈ noidAlphabet) (hd : d ∈ noidAlphabet)
    (k : Nat) : noidValue c * k ≡ noidValue d * k [MOD 29] ↔ c = d ∨ 29 ∣ k := by
  constructor
  · intro h
    by_cases hk : 29 ∣ k
    · exact .inr hk
    · have hprime : Nat.Prime 29 := by norm_num
      have hcoprime : Nat.gcd 29 k = 1 := hprime.coprime_iff_not_dvd.2 hk
      have hvalue := Nat.ModEq.cancel_right_of_coprime hcoprime h
      have heq := hvalue.eq_of_lt_of_lt (noidValue_lt hc) (noidValue_lt hd)
      exact .inl ((noidValue_inj hc hd).1 heq)
  · rintro (rfl | hk)
    · rfl
    · have hzero : ∀ n, n * k ≡ 0 [MOD 29] := fun n =>
        Nat.modEq_zero_iff_dvd.2 (Dvd.dvd.mul_left hk n)
      exact (hzero _).trans (hzero _).symm

/-! ## Sums -/

theorem noidSum_append (i : Nat) (s t : Text) :
    noidSum i (s ++ t) = noidSum i s + noidSum (i + s.length) t := by
  induction s generalizing i with
  | nil => simp [noidSum]
  | cons c s ih =>
    simp only [List.cons_append, noidSum, ih, List.length_cons]
    have hplace : i + 1 + s.length = i + (s.length + 1) := by omega
    rw [hplace]
    omega

/-- The check character stands in the alphabet at the sum, modulo its size. -/
theorem getElem?_noidCheck (s : Text) :
    noidAlphabet[noidSum 1 s % 29]? = some (noidCheck s) := by
  have hlt : noidSum 1 s % 29 < noidAlphabet.length := Nat.mod_lt _ (by decide)
  have hcheck : noidCheck s = noidAlphabet.getD (noidSum 1 s % 29) '0' := rfl
  rw [hcheck, List.getD_eq_getElem?_getD, List.getElem?_eq_getElem hlt, Option.getD_some]

/-- Texts with one sum but for a part have one check character when these parts are congruent. -/
theorem noidCheck_eq_iff {s t : Text} {r m n : Nat} (hs : noidSum 1 s = r + m)
    (ht : noidSum 1 t = r + n) : noidCheck s = noidCheck t ↔ m ≡ n [MOD 29] := by
  have hlt : noidSum 1 s % 29 < noidAlphabet.length := Nat.mod_lt _ (by decide)
  calc noidCheck s = noidCheck t
      ↔ some (noidCheck s) = some (noidCheck t) := Option.some_inj.symm
    _ ↔ noidAlphabet[noidSum 1 s % 29]? = noidAlphabet[noidSum 1 t % 29]? := by
        rw [getElem?_noidCheck, getElem?_noidCheck]
    _ ↔ noidSum 1 s ≡ noidSum 1 t [MOD 29] := List.getElem?_inj hlt (by decide)
    _ ↔ m ≡ n [MOD 29] := by
        rw [hs, ht]
        exact ⟨Nat.ModEq.add_left_cancel' r, Nat.ModEq.add_left r⟩

/-! ## Errors -/

variable {c d : Char}

/-- One character in the place of another changes the sum by the difference of their values, times
the position. -/
theorem noidCheck_replaced_iff (hc : c ∈ noidAlphabet) (hd : d ∈ noidAlphabet) (a b : Text) :
    noidCheck (a ++ c :: b) = noidCheck (a ++ d :: b) ↔ c = d ∨ 29 ∣ a.length + 1 := by
  have hsum : ∀ e, noidSum 1 (a ++ e :: b) =
      noidSum 1 a + noidSum (a.length + 2) b + noidValue e * (a.length + 1) := by
    intro e
    rw [noidSum_append, noidSum, Nat.add_comm 1 a.length]
    ring
  rw [noidCheck_eq_iff (hsum c) (hsum d)]
  exact noidValue_mul_modEq_iff hc hd _

/-- Two characters that change places change the sum by this difference, times their distance. -/
theorem noidCheck_exchanged_iff (hc : c ∈ noidAlphabet) (hd : d ∈ noidAlphabet) (a m b : Text) :
    noidCheck (a ++ c :: (m ++ d :: b)) = noidCheck (a ++ d :: (m ++ c :: b)) ↔
      c = d ∨ 29 ∣ m.length + 1 := by
  -- Both characters once at the first of the two positions, and one of them for the distance.
  have hsum : ∀ e f, noidSum 1 (a ++ e :: (m ++ f :: b)) =
      noidSum 1 a + (noidValue e + noidValue f) * (a.length + 1) + noidSum (a.length + 2) m +
        noidSum (a.length + m.length + 3) b + noidValue f * (m.length + 1) := by
    intro e f
    have hplace : 1 + a.length + 1 + m.length = (a.length + 1) + (m.length + 1) := by omega
    have hnext : (a.length + 1) + (m.length + 1) + 1 = a.length + m.length + 3 := by omega
    rw [noidSum_append, noidSum, noidSum_append, noidSum, hplace, hnext, Nat.add_comm 1 a.length]
    ring
  have hcommon := hsum d c
  rw [Nat.add_comm (noidValue d) (noidValue c)] at hcommon
  rw [noidCheck_eq_iff (hsum c d) hcommon, noidValue_mul_modEq_iff hd hc, eq_comm]

/-- **Single errors are seen.** With one character of the alphabet in the place of another, the
check character is another one unless the position, counted from 1, is a multiple of 29; with two
characters that change places it is another one unless their distance is. -/
theorem noidCheck_detects (hc : c ∈ noidAlphabet) (hd : d ∈ noidAlphabet) (hne : c ≠ d)
    (a b : Text) :
    (noidCheck (a ++ c :: b) ≠ noidCheck (a ++ d :: b) ↔ ¬ 29 ∣ a.length + 1) ∧
      ∀ m, noidCheck (a ++ c :: (m ++ d :: b)) ≠ noidCheck (a ++ d :: (m ++ c :: b)) ↔
        ¬ 29 ∣ m.length + 1 := by
  constructor
  · rw [ne_eq, noidCheck_replaced_iff hc hd, or_iff_right hne]
  · intro m
    rw [ne_eq, noidCheck_exchanged_iff hc hd, or_iff_right hne]

/-- A digit is misread, or changes places with the next one. -/
theorem noidCheck_detects_record :
    '4' ∈ noidAlphabet ∧ '5' ∈ noidAlphabet ∧ '4' ≠ '5' ∧ ¬ 29 ∣ 8 ∧ ¬ 29 ∣ 1 ∧
      noidCheck "cb11934455" ≠ noidCheck "cb11934555" ∧
      noidCheck "cb11934455" ≠ noidCheck "cb11934545" := by
  have hfour : '4' ∈ noidAlphabet := by decide
  have hfive : '5' ∈ noidAlphabet := by decide
  have hne : '4' ≠ '5' := by decide
  have hreplaced : ¬ 29 ∣ 8 := by decide
  have hexchanged : ¬ 29 ∣ 1 := by decide
  refine ⟨hfour, hfive, hne, hreplaced, hexchanged, ?_, ?_⟩
  · exact (noidCheck_detects hfour hfive hne "cb11934" "55").1.2 hreplaced
  · exact ((noidCheck_detects hfour hfive hne "cb11934" "5").2 []).2 hexchanged

end Crosswalk.Filter
