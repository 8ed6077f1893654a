import Crosswalk.Proofs.Text.Collapse
import Crosswalk.Proofs.Text.Quote

/-!
# What stands outside quotes

`Quote.outside none s` has the characters of `s` outside quotes. A text is cut at a mark if and only
if the mark is one of them:

    cutOutside? mark s = none ↔ mark ∉ Quote.outside none s               (cutOutside?_eq_none_iff)

Blanks neither open nor close quotes. Texts that differ in blanks alone, such as a text and what is
collapsed of it, have the same characters outside quotes (`mem_outside_congr`).
-/

namespace Crosswalk.Text

/-- The characters outside quotes, without the quote marks, where `opened` is open at first. -/
def Quote.outside (opened : Option Char) : Text → Text
  | [] => []
  | c :: s =>
    if opened.isNone && !isQuoteMark c then c :: Quote.outside none s
    else Quote.outside (Quote.step opened c) s

section
variable {opened : Option Char} {mark q c : Char} {s t : Text}

theorem Quote.after_cons (opened : Option Char) (c : Char) (s : Text) :
    Quote.after opened (c :: s) = Quote.after (Quote.step opened c) s := rfl

theorem outside_cons (h : isQuoteMark c = false) (s : Text) :
    Quote.outside none (c :: s) = c :: Quote.outside none s := by
  rw [Quote.outside, h]
  rfl

theorem outside_open (h : isQuoteMark c = true) (s : Text) :
    Quote.outside none (c :: s) = Quote.outside (some c) s := by
  rw [Quote.outside, h]
  simp [Quote.step, h]

theorem outside_inside (q c : Char) (s : Text) :
    Quote.outside (some q) (c :: s) = Quote.outside (Quote.step (some q) c) s := rfl

theorem outside_append (opened : Option Char) (s t : Text) :
    Quote.outside opened (s ++ t) =
      Quote.outside opened s ++ Quote.outside (Quote.after opened s) t := by
  induction s generalizing opened with
  | nil => rfl
  | cons c s ih =>
    rw [List.cons_append, Quote.after_cons]
    cases opened with
    | some q => rw [outside_inside, outside_inside, ih]
    | none =>
      cases hc : isQuoteMark c with
      | true =>
        rw [outside_open hc, outside_open hc, ih]
        simp [Quote.step, hc]
      | false =>
        rw [outside_cons hc, outside_cons hc, ih, Quote.step_of_not_mark hc]
        rfl

theorem outside_subset : Quote.outside opened s ⊆ s := by
  induction s generalizing opened with
  | nil => exact List.Subset.refl _
  | cons c s ih =>
    rw [Quote.outside]
    split
    · exact List.cons_subset_cons c ih
    · exact List.subset_cons_of_subset c ih

/-- A text without quotes stands outside of them. -/
theorem outside_unquoted (h : ∀ c ∈ s, isQuoteMark c = false) :
    Quote.outside none s = s ∧ Quote.after none s = none := by
  induction s with
  | nil => exact ⟨rfl, rfl⟩
  | cons c s ih =>
    obtain ⟨hc, hs⟩ := List.forall_mem_cons.1 h
    rw [outside_cons hc, Quote.after_cons, Quote.step_of_not_mark hc, (ih hs).1]
    exact ⟨rfl, (ih hs).2⟩

/-- A text without the open mark stands inside its quotes. -/
theorem outside_within (h : q ∉ s) :
    Quote.outside (some q) s = [] ∧ Quote.after (some q) s = some q := by
  induction s with
  | nil => exact ⟨rfl, rfl⟩
  | cons c s ih =>
    obtain ⟨hc, hs⟩ := not_or.1 (mt List.mem_cons.2 h)
    have hstep : Quote.step (some q) c = some q := if_neg (Ne.symm hc)
    rw [outside_inside, Quote.after_cons, hstep]
    exact ih hs

/-! ## Cuts -/

theorem cutOutsideFrom?_eq_none_iff (hmark : isQuoteMark mark = false) :
    cutOutsideFrom? mark opened s = none ↔ mark ∉ Quote.outside opened s := by
  induction s generalizing opened with
  | nil => simp [cutOutsideFrom?, Quote.outside]
  | cons c s ih =>
    cases opened with
    | some q =>
      rw [cutOutsideFrom?, if_neg (by simp), Option.map_eq_none_iff, ih, outside_inside]
    | none =>
      cases hc : isQuoteMark c with
      | true =>
        have hne : c ≠ mark := by
          rintro rfl
          rw [hc] at hmark
          cases hmark
        rw [cutOutsideFrom?, if_neg (by simp [hne]), Option.map_eq_none_iff, ih, outside_open hc]
        simp [Quote.step, hc]
      | false =>
        rw [outside_cons hc, List.mem_cons, not_or, cutOutsideFrom?]
        by_cases hne : c = mark
        · simp [hne]
        · rw [if_neg (by simp [hne]), Option.map_eq_none_iff, ih, Quote.step_of_not_mark hc]
          exact (and_iff_right (Ne.symm hne)).symm

theorem cutOutside?_eq_none_iff (hmark : isQuoteMark mark = false) :
    cutOutside? mark s = none ↔ mark ∉ Quote.outside none s := cutOutsideFrom?_eq_none_iff hmark

theorem cutLastOutside?_eq_none_iff (hmark : isQuoteMark mark = false) :
    cutLastOutside? mark s = none ↔ mark ∉ Quote.outside none s := by
  have hfirst : ∀ opened, cutLastOutsideFrom? mark opened s = none ↔
      cutOutsideFrom? mark opened s = none := by
    induction s with
    | nil => exact fun _ => Iff.rfl
    | cons c s ih =>
      intro opened
      rw [cutLastOutsideFrom?, cutOutsideFrom?]
      split
      · next h =>
        have hsome := (ih (Quote.step opened c)).not.1 (by simp [h])
        split <;> simp [hsome]
      · next h =>
        split
        · simp
        · simp [(ih _).1 h]
  exact (hfirst none).trans (cutOutsideFrom?_eq_none_iff hmark)

/-- The last mark of a text is the last one when something stands before the text. -/
theorem cutLastOutsideFrom?_append_left {a b : Text}
    (h : cutLastOutsideFrom? mark (Quote.after opened s) t = some (a, b)) :
    cutLastOutsideFrom? mark opened (s ++ t) = some (s ++ a, b) := by
  induction s generalizing opened with
  | nil => exact h
  | cons c s ih => rw [List.cons_append, cutLastOutsideFrom?, ih h, List.cons_append]

/-- No quote is left open, and the mark stands nowhere outside quotes. -/
def Sealed (mark : Char) (s : Text) : Prop :=
  Quote.after none s = none ∧ mark ∉ Quote.outside none s

theorem Sealed.append (hs : Sealed mark s) (ht : Sealed mark t) : Sealed mark (s ++ t) := by
  refine ⟨by rw [Quote.after_append, hs.1, ht.1], ?_⟩
  rw [outside_append, hs.1, List.mem_append, not_or]
  exact ⟨hs.2, ht.2⟩

theorem Free.sealed (h : Free mark s) : Sealed mark s :=
  ⟨h.after, fun hc => (h mark (outside_subset hc)).2 rfl⟩

/-! ## Blanks -/

theorem isQuoteMark_of_isBlank (h : isBlank c = true) : isQuoteMark c = false := by
  have hmarks : ∀ d ∈ ['\'', '"'], isBlank d = false := forall_mem_of_all (by decide)
  have hne : ∀ d ∈ ['\'', '"'], c ≠ d := by
    rintro d hd rfl
    rw [hmarks c hd] at h
    cases h
  rw [isQuoteMark, Bool.or_eq_false_iff, beq_eq_false_iff_ne, beq_eq_false_iff_ne]
  exact ⟨hne '\'' (by decide), hne '"' (by decide)⟩

theorem Quote.isQuoteMark_step (h : ∀ q ∈ opened, isQuoteMark q = true) (c : Char) :
    ∀ q ∈ Quote.step opened c, isQuoteMark q = true := by
  cases opened with
  | none => cases hc : isQuoteMark c <;> simp [Quote.step, hc]
  | some p =>
    by_cases hc : c = p
    · simp [Quote.step, hc]
    · simpa [Quote.step, hc] using h

theorem Quote.isQuoteMark_after (h : ∀ q ∈ opened, isQuoteMark q = true) (s : Text) :
    ∀ q ∈ Quote.after opened s, isQuoteMark q = true := by
  induction s generalizing opened with
  | nil => exact h
  | cons c s ih => exact ih (Quote.isQuoteMark_step h c)

/-- A blank neither opens nor closes quotes. -/
theorem Quote.step_blank (h : ∀ q ∈ opened, isQuoteMark q = true) (hc : isBlank c = true) :
    Quote.step opened c = opened := by
  have hquote := isQuoteMark_of_isBlank hc
  cases opened with
  | none => exact Quote.step_of_not_mark hquote
  | some q =>
    refine if_neg ?_
    rintro rfl
    rw [h c rfl] at hquote
    cases hquote

/-- Which quotes are open, and what stands outside, does not depend on blanks. -/
theorem outside_filter (h : ∀ q ∈ opened, isQuoteMark q = true) (s : Text) :
    Quote.after opened (s.filter fun c => !isBlank c) = Quote.after opened s ∧
      Quote.outside opened (s.filter fun c => !isBlank c) =
        (Quote.outside opened s).filter fun c => !isBlank c := by
  induction s generalizing opened with
  | nil => exact ⟨rfl, rfl⟩
  | cons c s ih =>
    obtain ⟨hafter, houtside⟩ := ih (Quote.isQuoteMark_step h c)
    cases hc : isBlank c with
    | true =>
      rw [Quote.step_blank h hc] at hafter houtside
      rw [List.filter_cons_of_neg (by simp [hc]), Quote.after_cons, Quote.step_blank h hc]
      refine ⟨hafter, houtside.trans ?_⟩
      cases opened with
      | none =>
        rw [outside_cons (isQuoteMark_of_isBlank hc), List.filter_cons_of_neg (by simp [hc])]
      | some q => rw [outside_inside, Quote.step_blank h hc]
    | false =>
      rw [List.filter_cons_of_pos (by simp [hc]), Quote.after_cons, Quote.after_cons]
      refine ⟨hafter, ?_⟩
      cases opened with
      | some q => exact houtside
      | none =>
        cases hquote : isQuoteMark c with
        | true =>
          rw [outside_open hquote, outside_open hquote]
          simpa [Quote.step, hquote] using houtside
        | false =>
          rw [Quote.step_of_not_mark hquote] at houtside
          rw [outside_cons hquote, outside_cons hquote, houtside,
            List.filter_cons_of_pos (by simp [hc])]

theorem after_congr (h : s.filter (fun c => !isBlank c) = t.filter fun c => !isBlank c) :
    Quote.after none s = Quote.after none t := by
  rw [← (outside_filter (by simp) s).1, h, (outside_filter (by simp) t).1]

theorem mem_outside_congr (h : s.filter (fun c => !isBlank c) = t.filter fun c => !isBlank c)
    (hc : isBlank c = false) : c ∈ Quote.outside none s ↔ c ∈ Quote.outside none t := by
  have hmem : ∀ u : Text, c ∈ Quote.outside none u ↔
      c ∈ (Quote.outside none u).filter fun c => !isBlank c := fun u => by
    rw [List.mem_filter, hc]
    exact (and_iff_left rfl).symm
  rw [hmem s, hmem t, ← (outside_filter (by simp) s).2, h, (outside_filter (by simp) t).2]

theorem filter_trim (s : Text) :
    (trim s).filter (fun c => !isBlank c) = s.filter fun c => !isBlank c := by
  rw [← filter_collapse, collapse_trim, filter_collapse]

end

end Crosswalk.Text
