import Crosswalk.Proofs.Text.Blank
import Crosswalk.Text.Name

/-!
# Words of a text

Cutting a text at a mark takes the texts on both sides apart (`cutsAt_append`), so that joining and
cutting undo each other (`cutsAt_joinWith`, `words_joinWith`). Blanks at the ends of a text and runs
of them are gone once its words are joined:

    collapse (s ++ spaced ws) = collapse s ++ spaced ws              (collapse_append_spaced)

where `spaced ws` writes words behind a blank each.
-/

namespace Crosswalk.Text

/-! ## Cuts -/

theorem cutsAt_ne_nil (p : Char → Bool) (s : Text) : cutsAt p s ≠ [] := by
  cases s with
  | nil => simp [cutsAt]
  | cons c s =>
    unfold cutsAt
    split
    · simp
    · split <;> simp

theorem cutsAt_cons_of_pos {p : Char → Bool} {c : Char} (hc : p c = true) (s : Text) :
    cutsAt p (c :: s) = [] :: cutsAt p s := by
  rw [cutsAt, hc]
  rfl

theorem cutsAt_cons_of_neg {p : Char → Bool} {c : Char} (hc : p c = false) {s run : Text}
    {runs : List Text} (h : cutsAt p s = run :: runs) : cutsAt p (c :: s) = (c :: run) :: runs := by
  rw [cutsAt, hc, h]
  rfl

theorem cutsAt_append {p : Char → Bool} {c : Char} (hc : p c = true) (a b : Text) :
    cutsAt p (a ++ c :: b) = cutsAt p a ++ cutsAt p b := by
  induction a with
  | nil => exact cutsAt_cons_of_pos hc b
  | cons d a ih =>
    cases hd : p d with
    | true =>
      rw [List.cons_append, cutsAt_cons_of_pos hd, ih, cutsAt_cons_of_pos hd]
      rfl
    | false =>
      obtain ⟨run, runs, hrun⟩ := List.exists_cons_of_ne_nil (cutsAt_ne_nil p a)
      rw [List.cons_append, cutsAt_cons_of_neg hd hrun,
        cutsAt_cons_of_neg hd (by rw [ih, hrun]; rfl)]
      rfl

theorem cutsAt_of_forall {p : Char → Bool} {s : Text} (h : ∀ c ∈ s, p c = false) :
    cutsAt p s = [s] := by
  induction s with
  | nil => rfl
  | cons c s ih =>
    exact cutsAt_cons_of_neg (h c List.mem_cons_self)
      (ih fun d hd => h d (List.mem_cons_of_mem c hd))

theorem not_of_mem_cutsAt {p : Char → Bool} {s w : Text} (hw : w ∈ cutsAt p s) :
    ∀ c ∈ w, p c = false := by
  induction s generalizing w with
  | nil => simp [cutsAt] at hw; simp [hw]
  | cons d s ih =>
    obtain ⟨run, runs, hrun⟩ := List.exists_cons_of_ne_nil (cutsAt_ne_nil p s)
    cases hd : p d with
    | true =>
      rw [cutsAt_cons_of_pos hd] at hw
      rcases List.mem_cons.1 hw with rfl | hw
      · simp
      · exact ih hw
    | false =>
      rw [cutsAt_cons_of_neg hd hrun] at hw
      rw [hrun] at ih
      rcases List.mem_cons.1 hw with rfl | hw
      · exact List.forall_mem_cons.2 ⟨hd, ih List.mem_cons_self⟩
      · exact ih (List.mem_cons_of_mem run hw)

theorem mem_cutsAt {p : Char → Bool} {s : Text} {c : Char} (hc : c ∈ s) :
    p c = true ∨ ∃ w ∈ cutsAt p s, c ∈ w := by
  induction s with
  | nil => cases hc
  | cons d s ih =>
    obtain ⟨run, runs, hrun⟩ := List.exists_cons_of_ne_nil (cutsAt_ne_nil p s)
    cases hd : p d with
    | true =>
      rw [cutsAt_cons_of_pos hd]
      rcases List.mem_cons.1 hc with rfl | hc
      · exact .inl hd
      · exact (ih hc).imp_right fun ⟨w, hw, hcw⟩ => ⟨w, List.mem_cons_of_mem _ hw, hcw⟩
    | false =>
      rw [cutsAt_cons_of_neg hd hrun]
      rcases List.mem_cons.1 hc with rfl | hc
      · exact .inr ⟨_, List.mem_cons_self, List.mem_cons_self⟩
      · refine (ih hc).imp_right fun ⟨w, hw, hcw⟩ => ?_
        rw [hrun] at hw
        rcases List.mem_cons.1 hw with rfl | hw
        · exact ⟨_, List.mem_cons_self, List.mem_cons_of_mem d hcw⟩
        · exact ⟨w, List.mem_cons_of_mem _ hw, hcw⟩

theorem mem_of_mem_cutsAt {p : Char → Bool} {s w : Text} (hw : w ∈ cutsAt p s) :
    ∀ c ∈ w, c ∈ s := by
  induction s generalizing w with
  | nil =>
    obtain rfl : w = [] := by simpa [cutsAt] using hw
    simp
  | cons d s ih =>
    obtain ⟨run, runs, hrun⟩ := List.exists_cons_of_ne_nil (cutsAt_ne_nil p s)
    intro c hc
    cases hd : p d with
    | true =>
      rw [cutsAt_cons_of_pos hd] at hw
      rcases List.mem_cons.1 hw with rfl | hw
      · cases hc
      · exact List.mem_cons_of_mem d (ih hw c hc)
    | false =>
      rw [cutsAt_cons_of_neg hd hrun] at hw
      rw [hrun] at ih
      rcases List.mem_cons.1 hw with rfl | hw
      · rcases List.mem_cons.1 hc with rfl | hc
        · exact List.mem_cons_self
        · exact List.mem_cons_of_mem d (ih List.mem_cons_self c hc)
      · exact List.mem_cons_of_mem d (ih (List.mem_cons_of_mem run hw) c hc)

theorem cutsAt_joinWith {p : Char → Bool} {c : Char} (hc : p c = true) {parts : List Text}
    (hne : parts ≠ []) (h : ∀ w ∈ parts, ∀ d ∈ w, p d = false) :
    cutsAt p (joinWith [c] parts) = parts := by
  induction parts with
  | nil => exact absurd rfl hne
  | cons w parts ih =>
    have hw := cutsAt_of_forall (h w List.mem_cons_self)
    cases parts with
    | nil => rw [joinWith_singleton, hw]
    | cons v parts =>
      rw [joinWith_cons _ _ (by simp), List.append_assoc, List.singleton_append,
        cutsAt_append hc, hw, ih (by simp) fun w hw => h w (List.mem_cons_of_mem _ hw)]
      rfl

/-! ## Words -/

/-- A text that is not empty and has no blanks. -/
def Solid (w : Text) : Prop := w ≠ [] ∧ ∀ c ∈ w, isBlank c = false

theorem solid_of_mem_words {s w : Text} (h : w ∈ words s) : Solid w := by
  obtain ⟨hw, hne⟩ := List.mem_filter.1 h
  exact ⟨by simpa using hne, not_of_mem_cutsAt hw⟩

theorem words_append {c : Char} (hc : isBlank c = true) (a b : Text) :
    words (a ++ c :: b) = words a ++ words b := by
  unfold words
  rw [cutsAt_append hc, List.filter_append]

theorem words_cons {c : Char} (hc : isBlank c = true) (s : Text) : words (c :: s) = words s :=
  words_append hc [] s

theorem words_blank {s : Text} (h : ∀ c ∈ s, isBlank c = true) : words s = [] := by
  induction s with
  | nil => rfl
  | cons c s ih =>
    rw [words_cons (h c List.mem_cons_self), ih fun d hd => h d (List.mem_cons_of_mem c hd)]

theorem words_solid {w : Text} (h : Solid w) : words w = [w] := by
  unfold words
  rw [cutsAt_of_forall h.2]
  simp [h.1]

/-- Blanks around a text make no words. -/
theorem words_surrounded {a s b : Text} (ha : ∀ c ∈ a, isBlank c = true)
    (hb : ∀ c ∈ b, isBlank c = true) : words (a ++ s ++ b) = words s := by
  induction a with
  | nil =>
    cases b with
    | nil => simp
    | cons c b =>
      rw [List.nil_append, words_append (hb c List.mem_cons_self),
        words_blank fun d hd => hb d (List.mem_cons_of_mem c hd), List.append_nil]
  | cons c a ih =>
    rw [List.cons_append, List.cons_append, words_cons (ha c List.mem_cons_self),
      ih fun d hd => ha d (List.mem_cons_of_mem c hd)]

theorem words_trim (s : Text) : words (trim s) = words s := by
  obtain ⟨a, b, ha, hb, hs⟩ := exists_eq_trimOf isBlank s
  calc words (trim s) = words (a ++ trim s ++ b) := (words_surrounded ha hb).symm
    _ = words s := congrArg words hs.symm

theorem words_joinWith {ws : List Text} (h : ∀ w ∈ ws, Solid w) :
    words (joinWith [' '] ws) = ws := by
  induction ws with
  | nil => rfl
  | cons w ws ih =>
    have hw := words_solid (h w List.mem_cons_self)
    cases ws with
    | nil => rw [joinWith_singleton, hw]
    | cons v ws =>
      rw [joinWith_cons _ _ (by simp), List.append_assoc, List.singleton_append,
        words_append (by decide), hw, ih fun w hw => h w (List.mem_cons_of_mem _ hw)]
      rfl

/-- A text that starts with no blank starts with a word. -/
theorem exists_words_cons {c : Char} (hc : isBlank c = false) (s : Text) :
    ∃ w ws, words (c :: s) = (c :: w) :: ws := by
  obtain ⟨run, runs, hrun⟩ := List.exists_cons_of_ne_nil (cutsAt_ne_nil isBlank s)
  refine ⟨run, runs.filter fun w => w != [], ?_⟩
  rw [words, cutsAt_cons_of_neg hc hrun]
  rfl

/-! ## Collapsed texts -/

theorem collapse_congr {s t : Text} (h : words s = words t) : collapse s = collapse t := by
  unfold collapse
  rw [h]

theorem words_collapse (s : Text) : words (collapse s) = words s :=
  words_joinWith fun _ hw => solid_of_mem_words hw

theorem cleanName_congr {s t : Text} (h : words s = words t) : cleanName s = cleanName t := by
  unfold cleanName
  rw [collapse_congr h]

/-- Words behind a blank each. -/
def spaced (ws : List Text) : Text := ws.flatMap fun w => ' ' :: w

theorem joinWith_eq_spaced (w : Text) (ws : List Text) :
    joinWith [' '] (w :: ws) = w ++ spaced ws := by
  induction ws generalizing w with
  | nil => simp [spaced]
  | cons v ws ih =>
    rw [joinWith_cons _ _ (by simp), ih]
    simp [spaced]

theorem joinWith_append_spaced {vs : List Text} (hne : vs ≠ []) (ws : List Text) :
    joinWith [' '] (vs ++ ws) = joinWith [' '] vs ++ spaced ws := by
  obtain ⟨v, vs, rfl⟩ := List.exists_cons_of_ne_nil hne
  rw [List.cons_append, joinWith_eq_spaced, joinWith_eq_spaced]
  simp [spaced]

theorem words_append_spaced {ws : List Text} (h : ∀ w ∈ ws, Solid w) (s : Text) :
    words (s ++ spaced ws) = words s ++ ws := by
  induction ws generalizing s with
  | nil => simp [spaced]
  | cons w ws ih =>
    have hspaced : s ++ spaced (w :: ws) = s ++ ' ' :: (w ++ spaced ws) := rfl
    rw [hspaced, words_append (by decide), ih fun w hw => h w (List.mem_cons_of_mem _ hw),
      words_solid (h w List.mem_cons_self)]
    rfl

/-- Words behind a text stay as they are when it is collapsed. -/
theorem collapse_append_spaced {s : Text} {ws : List Text} (hs : words s ≠ [])
    (h : ∀ w ∈ ws, Solid w) : collapse (s ++ spaced ws) = collapse s ++ spaced ws := by
  unfold collapse
  rw [words_append_spaced h s, joinWith_append_spaced hs]

end Crosswalk.Text
