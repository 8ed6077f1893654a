import Crosswalk.Proofs.Text.Replace

/-!
# Cutting at the first or the last mark

Where a text is cut at its first mark does not depend on what follows, when the mark ends before it:

    cut? mark s = some (a, b) → cut? mark (s ++ z) = some (a, b ++ z)            (cut?_append_right)

Behind the last mark there is none:

    cutLast? c s = some (a, b) ↔ s = a ++ c :: b ∧ c ∉ b                       (cutLast?_eq_some_iff)
-/

namespace Crosswalk.Text

variable {c : Char} {mark s a b : Text}

theorem after?_append_right (h : after? mark s = some b) (z : Text) :
    after? mark (s ++ z) = some (b ++ z) := by
  rw [after?_eq_some] at h ⊢
  rw [h, List.append_assoc]

theorem cutChar?_append_right (h : cutChar? c s = some (a, b)) (z : Text) :
    cutChar? c (s ++ z) = some (a, b ++ z) := by
  induction s generalizing a with
  | nil => cases h
  | cons d s ih =>
    rw [cutChar?] at h
    rw [List.cons_append, cutChar?]
    split at h
    · next hd =>
      cases h
      rw [if_pos hd]
    · next hd =>
      obtain ⟨p, hp, he⟩ := Option.map_eq_some_iff.1 h
      obtain ⟨rfl, rfl⟩ := Prod.mk.inj he
      rw [if_neg hd, ih hp]
      rfl

theorem cutChar?_eq_some (h : cutChar? c s = some (a, b)) : s = a ++ c :: b := by
  induction s generalizing a with
  | nil => cases h
  | cons d s ih =>
    rw [cutChar?] at h
    split at h
    · next hd =>
      cases h
      rw [hd]
      rfl
    · obtain ⟨p, hp, he⟩ := Option.map_eq_some_iff.1 h
      obtain ⟨rfl, rfl⟩ := Prod.mk.inj he
      rw [ih hp]
      rfl

/-- A text without the mark is cut off before it. -/
theorem cutChar?_of_not_mem (h : c ∉ a) (b : Text) : cutChar? c (a ++ c :: b) = some (a, b) := by
  induction a with
  | nil => simp [cutChar?]
  | cons d a ih =>
    obtain ⟨hd, ha⟩ := not_or.1 (mt List.mem_cons.2 h)
    rw [List.cons_append, cutChar?, if_neg (Ne.symm hd), ih ha]
    rfl

theorem cutChar?_eq_cut? (c : Char) (s : Text) : cutChar? c s = cut? [c] s := by
  induction s with
  | nil => rfl
  | cons d s ih =>
    rw [cutChar?, cut?, after?]
    by_cases hd : d = c
    · rw [if_pos hd, if_pos hd.symm]
      rfl
    · rw [if_neg hd, if_neg (Ne.symm hd), ih]

/-- The first mark stays the first one, since it ends before what follows. -/
theorem cut?_append_right (hm : mark ≠ []) (h : cut? mark s = some (a, b)) (z : Text) :
    cut? mark (s ++ z) = some (a, b ++ z) := by
  induction s generalizing a with
  | nil =>
    obtain ⟨m, mark, rfl⟩ := List.exists_cons_of_ne_nil hm
    cases h
  | cons c s ih =>
    rw [cut?] at h
    rw [List.cons_append, cut?]
    cases hafter : after? mark (c :: s) with
    | some rest =>
      rw [hafter] at h
      cases h
      have hlonger := after?_append_right hafter z
      rw [List.cons_append] at hlonger
      rw [hlonger]
    | none =>
      rw [hafter] at h
      obtain ⟨p, hp, he⟩ := Option.map_eq_some_iff.1 h
      obtain ⟨rfl, rfl⟩ := Prod.mk.inj he
      have hnone : after? mark (c :: (s ++ z)) = none := by
        cases hlonger : after? mark (c :: (s ++ z)) with
        | none => rfl
        | some rest =>
          have hprefix : mark <+: (c :: s) ++ z := ⟨rest, (after?_eq_some.1 hlonger).symm⟩
          have hlength : mark.length ≤ (c :: s).length := by
            rw [cut?_eq_some hp]
            simp
            omega
          obtain ⟨r, hr⟩ := List.prefix_of_prefix_length_le hprefix (List.prefix_append _ _) hlength
          rw [after?_eq_some.2 hr.symm] at hafter
          cases hafter
      rw [hnone, ih hp]
      rfl

theorem cutLast?_eq_none : cutLast? c s = none ↔ c ∉ s := by
  induction s with
  | nil => simp [cutLast?]
  | cons d s ih =>
    rw [cutLast?, List.mem_cons, not_or, ← ih]
    cases cutLast? c s with
    | some p => simp
    | none =>
      by_cases hd : d = c
      · simp [hd]
      · simp [hd, Ne.symm hd]

theorem cutLast?_append (h : c ∉ b) (a : Text) : cutLast? c (a ++ c :: b) = some (a, b) := by
  induction a with
  | nil =>
    rw [List.nil_append, cutLast?, cutLast?_eq_none.2 h]
    simp
  | cons d a ih => rw [List.cons_append, cutLast?, ih]

theorem cutLast?_eq_some_iff : cutLast? c s = some (a, b) ↔ s = a ++ c :: b ∧ c ∉ b := by
  constructor
  · intro h
    by_cases hs : c ∈ s
    · -- Read backwards, the last mark is the first one.
      obtain ⟨x, y, hxy, hx⟩ := List.eq_append_cons_of_mem (List.mem_reverse.2 hs)
      have hsplit : s = y.reverse ++ c :: x.reverse := by
        rw [← List.reverse_reverse s, hxy]
        simp
      have hlast : c ∉ x.reverse := mt List.mem_reverse.1 hx
      rw [hsplit, cutLast?_append hlast] at h
      obtain ⟨rfl, rfl⟩ := Prod.mk.inj (Option.some.inj h)
      exact ⟨hsplit, hlast⟩
    · rw [cutLast?_eq_none.2 hs] at h
      cases h
  · rintro ⟨rfl, hb⟩
    exact cutLast?_append hb a

/-- A text that does not start with the mark does not after all, when it holds another character. -/
theorem not_startsWith_append (hc : c ∈ s) (hmark : c ∉ mark)
    (hs : startsWith mark s = false) (z : Text) : startsWith mark (s ++ z) = false := by
  cases hlonger : startsWith mark (s ++ z) with
  | false => rfl
  | true =>
    obtain ⟨r, hr⟩ := startsWith_iff.1 hlonger
    have hprefix : mark <+: s ++ z := ⟨r, hr.symm⟩
    rcases Nat.le_total mark.length s.length with hle | hle
    · obtain ⟨u, hu⟩ := List.prefix_of_prefix_length_le hprefix (List.prefix_append s z) hle
      rw [startsWith_iff.2 ⟨u, hu.symm⟩] at hs
      cases hs
    · have hwithin := List.prefix_of_prefix_length_le (List.prefix_append s z) hprefix hle
      exact absurd (hwithin.subset hc) hmark

end Crosswalk.Text
