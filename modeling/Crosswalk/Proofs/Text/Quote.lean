import Crosswalk.Text.Quote

/-!
# Cutting outside quotes

A text whose quotes are paired leaves none open, so a mark behind it stands outside
(`cutOutside?_append`, `cutLastOutsideFrom?_append`). A text without quotes and without the mark has
no place to cut at, nor has a text between two quotes.
-/

namespace Crosswalk.Text

/-- The text has neither quotes nor the mark. -/
def Free (mark : Char) (s : Text) : Prop := ∀ c ∈ s, isQuoteMark c = false ∧ c ≠ mark

section
variable {mark : Char} {s t : Text}

theorem Free.cons {c : Char} (h : Free mark (c :: s)) :
    (isQuoteMark c = false ∧ c ≠ mark) ∧ Free mark s :=
  ⟨h c List.mem_cons_self, fun d hd => h d (List.mem_cons_of_mem c hd)⟩

theorem Quote.step_of_not_mark {c : Char} (h : isQuoteMark c = false) :
    Quote.step none c = none := by
  simp [Quote.step, h]

theorem Free.after (h : Free mark s) : Quote.after none s = none := by
  induction s with
  | nil => rfl
  | cons c s ih =>
    rw [Quote.after, List.foldl_cons, Quote.step_of_not_mark h.cons.1.1]
    exact ih h.cons.2

/-! ## The first mark -/

theorem cutOutsideFrom?_append {opened : Option Char} (h : cutOutsideFrom? mark opened s = none) :
    cutOutsideFrom? mark opened (s ++ t) =
      (cutOutsideFrom? mark (Quote.after opened s) t).map fun p => (s ++ p.1, p.2) := by
  induction s generalizing opened with
  | nil =>
    simp only [List.nil_append, Quote.after, List.foldl_nil]
    cases cutOutsideFrom? mark opened t <;> rfl
  | cons c s ih =>
    rw [cutOutsideFrom?] at h
    split at h
    · cases h
    · next hc =>
      rw [List.cons_append, cutOutsideFrom?, if_neg hc, ih (Option.map_eq_none_iff.1 h)]
      simp [Quote.after, Function.comp_def]

/-- A mark behind a text whose quotes are paired and that has no mark outside of them. -/
theorem cutOutside?_append (h : cutOutside? mark s = none) (hs : Quote.after none s = none) :
    cutOutside? mark (s ++ t) = (cutOutside? mark t).map fun p => (s ++ p.1, p.2) := by
  unfold cutOutside?
  rw [cutOutsideFrom?_append h, hs]

theorem Free.cutOutside? (h : Free mark s) : cutOutside? mark s = none := by
  unfold Text.cutOutside?
  induction s with
  | nil => rfl
  | cons c s ih =>
    rw [cutOutsideFrom?, if_neg (by simp [h.cons.1.2]), Quote.step_of_not_mark h.cons.1.1,
      ih h.cons.2]
    rfl

theorem cutOutside?_of_not_mem (h : mark ∉ s) : cutOutside? mark s = none := by
  cases hcut : cutOutside? mark s with
  | none => rfl
  | some p => exact absurd (cutOutsideFrom?_eq_some hcut ▸ List.mem_append_cons_self) h

/-- Where no quotes stand, every mark is one to cut at. -/
theorem not_mem_of_cutOutside? (hs : ∀ c ∈ s, isQuoteMark c = false)
    (h : cutOutside? mark s = none) : mark ∉ s := by
  intro hmem
  obtain ⟨a, b, rfl, ha⟩ := List.eq_append_cons_of_mem hmem
  have hfree : Free mark a := fun c hc =>
    ⟨hs c (List.mem_append_left _ hc), ne_of_mem_of_not_mem hc ha⟩
  rw [cutOutside?_append hfree.cutOutside? hfree.after] at h
  simp [cutOutside?, cutOutsideFrom?] at h

/-! ## The last mark -/

theorem cutLastOutsideFrom?_append (hmark : isQuoteMark mark = false) {opened : Option Char}
    (hs : Quote.after opened s = none) (ht : cutLastOutsideFrom? mark none t = none) :
    cutLastOutsideFrom? mark opened (s ++ mark :: t) = some (s, t) := by
  induction s generalizing opened with
  | nil =>
    obtain rfl : opened = none := hs
    rw [List.nil_append, cutLastOutsideFrom?, Quote.step_of_not_mark hmark, ht]
    simp
  | cons c s ih =>
    rw [List.cons_append, cutLastOutsideFrom?, ih hs]

/-! ## Quoted parts -/

variable {q : Char}

/-- Before the quote is closed there is no place to cut at. -/
theorem cutOutsideFrom?_quoted (h : q ∉ s) : cutOutsideFrom? mark (some q) (s ++ [q]) = none := by
  induction s with
  | nil => simp [cutOutsideFrom?]
  | cons c s ih =>
    obtain ⟨hc, hs⟩ := not_or.1 (mt List.mem_cons.2 h)
    have hstep : Quote.step (some q) c = some q := if_neg (Ne.symm hc)
    rw [List.cons_append, cutOutsideFrom?, hstep, ih hs]
    rfl

theorem cutOutside?_quoted (hq : isQuoteMark q = true) (hmark : isQuoteMark mark = false)
    (h : q ∉ s) : cutOutside? mark (q :: (s ++ [q])) = none := by
  have hne : q ≠ mark := by
    rintro rfl
    rw [hq] at hmark
    cases hmark
  have hopen : Quote.step none q = some q := if_pos hq
  unfold Text.cutOutside?
  rw [cutOutsideFrom?, if_neg (by simp [hne]), hopen, cutOutsideFrom?_quoted h]
  rfl

theorem cutLastOutsideFrom?_quoted (h : q ∉ s) :
    cutLastOutsideFrom? mark (some q) (s ++ [q]) = none := by
  induction s with
  | nil => simp [cutLastOutsideFrom?]
  | cons c s ih =>
    obtain ⟨hc, hs⟩ := not_or.1 (mt List.mem_cons.2 h)
    have hstep : Quote.step (some q) c = some q := if_neg (Ne.symm hc)
    rw [List.cons_append, cutLastOutsideFrom?, hstep, ih hs]
    rfl

theorem cutLastOutside?_quoted (hq : isQuoteMark q = true) (hmark : isQuoteMark mark = false)
    (h : q ∉ s) : cutLastOutside? mark (q :: (s ++ [q])) = none := by
  have hne : q ≠ mark := by
    rintro rfl
    rw [hq] at hmark
    cases hmark
  have hopen : Quote.step none q = some q := if_pos hq
  unfold Text.cutLastOutside?
  rw [cutLastOutsideFrom?, hopen, cutLastOutsideFrom?_quoted h]
  exact if_neg (by simp [hne])

end

end Crosswalk.Text
