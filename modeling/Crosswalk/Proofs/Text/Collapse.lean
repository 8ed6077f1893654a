import Crosswalk.Proofs.Text.Words
import Mathlib.Data.List.Basic

/-!
# Collapsing the parts of a text

A text is collapsed part by part, but for the blank that may stay between two parts:

    collapse (a ++ b) = collapse a ++ gap ++ collapse b                          (collapse_append)
    collapse (a ++ b) = collapse a ++ collapse b       without blanks there      (collapse_tight)

Only blanks go (`filter_collapse`), and what is collapsed stays as it is. So does the name of a
field that is cleaned, since its parts around a colon are cleaned on their own:

    cleanName (a ++ ':' :: b) = cleanName a ++ ':' :: cleanName b                (cleanName_colon)
    cleanName (cleanName s) = cleanName s                                    (cleanName_cleanName)
-/

namespace Crosswalk.Text

/-! ## Joined words -/

section
variable {m : Text}

theorem joinWith_append {vs ws : List Text} (hv : vs ≠ []) (hw : ws ≠ []) :
    joinWith m (vs ++ ws) = joinWith m vs ++ m ++ joinWith m ws := by
  induction vs with
  | nil => exact absurd rfl hv
  | cons v vs ih =>
    cases vs with
    | nil => rw [List.singleton_append, joinWith_cons m v hw, joinWith_singleton]
    | cons u vs =>
      rw [List.cons_append, joinWith_cons m v (by simp), ih (by simp), joinWith_cons m v (by simp)]
      simp only [List.append_assoc]

/-- A word may be cut in two between two runs of words. -/
theorem joinWith_cut (vs : List Text) (v w : Text) (ws : List Text) :
    joinWith m (vs ++ (v ++ w) :: ws) = joinWith m (vs ++ [v]) ++ joinWith m (w :: ws) := by
  have hone : joinWith m ((v ++ w) :: ws) = v ++ joinWith m (w :: ws) := by
    cases ws with
    | nil => simp only [joinWith_singleton]
    | cons u ws => simp only [joinWith_cons m _ (List.cons_ne_nil u ws), List.append_assoc]
  cases vs with
  | nil => rw [List.nil_append, List.nil_append, joinWith_singleton, hone]
  | cons u vs =>
    rw [joinWith_append (by simp) (by simp), joinWith_append (by simp) (by simp), hone,
      joinWith_singleton]
    simp only [List.append_assoc]

end

/-! ## Runs of two texts -/

theorem exists_cutsAt_first (p : Char → Bool) (s : Text) : ∃ u us, cutsAt p s = u :: us :=
  List.exists_cons_of_ne_nil (cutsAt_ne_nil p s)

theorem exists_cutsAt_last (p : Char → Bool) (s : Text) : ∃ us u, cutsAt p s = us ++ [u] :=
  (List.eq_nil_or_concat' _).resolve_left (cutsAt_ne_nil p s)

/-- The last run of a text and the first one of the text behind it are one run. -/
theorem cutsAt_runs {p : Char → Bool} {a b x y : Text} {xs ys : List Text}
    (ha : cutsAt p a = xs ++ [x]) (hb : cutsAt p b = y :: ys) :
    cutsAt p (a ++ b) = xs ++ (x ++ y) :: ys := by
  -- The last run of `a` varies: each character is put before its first run, which may be the last.
  induction a generalizing xs x with
  | nil =>
    obtain ⟨rfl, rfl⟩ : xs = [] ∧ x = [] := by
      rcases List.append_eq_singleton_iff.1 ha.symm with ⟨hxs, hx⟩ | ⟨-, hx⟩
      · exact ⟨hxs, List.singleton_inj.1 hx⟩
      · cases hx
    exact hb
  | cons c a ih =>
    obtain ⟨us, u, hu⟩ := exists_cutsAt_last p a
    have hrest := ih hu
    cases hc : p c with
    | true =>
      rw [cutsAt_cons_of_pos hc, hu, ← List.cons_append] at ha
      obtain ⟨rfl, hx⟩ := List.append_inj' ha rfl
      obtain rfl := List.singleton_inj.1 hx
      rw [List.cons_append, cutsAt_cons_of_pos hc, hrest]
      rfl
    | false =>
      cases us with
      | nil =>
        rw [cutsAt_cons_of_neg hc hu, ← List.nil_append [_]] at ha
        obtain ⟨rfl, hx⟩ := List.append_inj' ha rfl
        obtain rfl := List.singleton_inj.1 hx
        exact cutsAt_cons_of_neg hc hrest
      | cons v us =>
        have hcons : cutsAt p (c :: a) = ((c :: v) :: us) ++ [u] := cutsAt_cons_of_neg hc hu
        obtain ⟨rfl, hx⟩ := List.append_inj' (hcons.symm.trans ha) rfl
        obtain rfl := List.singleton_inj.1 hx
        exact cutsAt_cons_of_neg hc hrest

/-- Between a blank and a blank, or where one stands, no word goes on. -/
theorem words_append_loose {a b : Text}
    (h : (∃ c ∈ a.getLast?, isBlank c = true) ∨ ∃ c ∈ b.head?, isBlank c = true) :
    words (a ++ b) = words a ++ words b := by
  rcases h with ⟨c, hc, hblank⟩ | ⟨c, hc, hblank⟩
  · obtain ⟨a, rfl⟩ := List.getLast?_eq_some_iff.1 hc
    rw [List.append_assoc, List.singleton_append, words_append hblank, words_append hblank]
    simp [words, cutsAt]
  · obtain ⟨b, rfl⟩ := List.head?_eq_some_iff.1 hc
    rw [words_append hblank, words_cons hblank]

/-! ## Parts -/

/-- Behind a text that is trimmed, only the end is trimmed. -/
theorem trim_append {s : Text} (hs : Trimmed isBlank s) (hne : s ≠ []) (t : Text) :
    trim (s ++ t) = s ++ trimEnd t := by
  have hstart : trimStartOf isBlank (s ++ t) = s ++ t := by
    obtain ⟨c, s, rfl⟩ := List.exists_cons_of_ne_nil hne
    exact dropWhile_of_head hs.1
  have hend : s.reverse.dropWhile isBlank = s.reverse := dropWhile_of_head hs.reverse.1
  rw [trim, trimOf, hstart, trimEnd, trimEndOf, trimEndOf, List.reverse_append,
    List.dropWhile_append, hend]
  split
  · next h =>
    rw [List.isEmpty_iff.1 h, List.reverse_reverse]
    simp
  · rw [List.reverse_append, List.reverse_reverse]

theorem trimEnd_subset (s : Text) : trimEnd s ⊆ s := by
  intro c hc
  rw [trimEnd, trimEndOf, List.mem_reverse] at hc
  exact List.mem_reverse.1 ((List.dropWhile_suffix _).subset hc)

section
variable {a b : Text}

/-- A word that goes on from one part into the next one stays whole. -/
theorem collapse_tight (ha : ∀ c ∈ a.getLast?, isBlank c = false)
    (hb : ∀ c ∈ b.head?, isBlank c = false) : collapse (a ++ b) = collapse a ++ collapse b := by
  rcases List.eq_nil_or_concat' a with rfl | ⟨a, d, rfl⟩
  · rfl
  rcases b with _ | ⟨e, b⟩
  · simp [collapse, words, cutsAt, joinWith, List.intercalate]
  have hd : isBlank d = false := ha d (by simp)
  have he : isBlank e = false := hb e rfl
  obtain ⟨xs, x, hx⟩ := exists_cutsAt_last isBlank a
  obtain ⟨y, ys, hy⟩ := exists_cutsAt_first isBlank b
  have hlast : cutsAt isBlank (a ++ [d]) = xs ++ [x ++ [d]] :=
    cutsAt_runs hx (cutsAt_of_forall (List.forall_mem_singleton.2 hd))
  have hfirst : cutsAt isBlank (e :: b) = (e :: y) :: ys := cutsAt_cons_of_neg he hy
  unfold collapse words
  rw [cutsAt_runs hlast hfirst, hlast, hfirst]
  simp only [List.filter_append, List.filter_cons, List.filter_nil]
  simpa using joinWith_cut (m := [' ']) (xs.filter (· != [])) (x ++ [d]) (e :: y)
    (ys.filter (· != []))

/-- At most one blank stays between two parts. -/
theorem collapse_append (a b : Text) :
    ∃ gap, (gap = [] ∨ gap = [' ']) ∧ collapse (a ++ b) = collapse a ++ gap ++ collapse b := by
  by_cases h : (∃ c ∈ a.getLast?, isBlank c = true) ∨ ∃ c ∈ b.head?, isBlank c = true
  · unfold collapse
    rw [words_append_loose h]
    by_cases ha : words a = []
    · exact ⟨[], .inl rfl, by rw [ha]; rfl⟩
    · by_cases hb : words b = []
      · refine ⟨[], .inl rfl, ?_⟩
        rw [hb, List.append_nil, List.append_nil]
        exact (List.append_nil _).symm
      · exact ⟨[' '], .inr rfl, joinWith_append ha hb⟩
  · rw [not_or] at h
    have htight : ∀ {o : Option Char}, (¬∃ c ∈ o, isBlank c = true) →
        ∀ c ∈ o, isBlank c = false := fun h c hc =>
      Bool.eq_false_iff.2 fun hblank => h ⟨c, hc, hblank⟩
    exact ⟨[], .inl rfl, by rw [collapse_tight (htight h.1) (htight h.2), List.append_nil]⟩

theorem isBlank_of_mem_gap {gap : Text} (h : gap = [] ∨ gap = [' ']) :
    ∀ c ∈ gap, isBlank c = true := by
  rcases h with rfl | rfl
  · exact List.forall_mem_nil _
  · exact List.forall_mem_singleton.2 (by decide)

end

theorem collapse_blank {s : Text} (h : ∀ c ∈ s, isBlank c = true) : collapse s = [] := by
  unfold collapse
  rw [words_blank h]
  rfl

theorem collapse_solid {s : Text} (h : ∀ c ∈ s, isBlank c = false) : collapse s = s := by
  by_cases hs : s = []
  · rw [hs]
    rfl
  · rw [collapse, words_solid ⟨hs, h⟩, joinWith_singleton]

theorem collapse_collapse (s : Text) : collapse (collapse s) = collapse s :=
  collapse_congr (words_collapse s)

theorem collapse_trim (s : Text) : collapse (trim s) = collapse s := collapse_congr (words_trim s)

/-- What is not blank stays, in its order. -/
theorem filter_collapse (s : Text) :
    (collapse s).filter (fun c => !isBlank c) = s.filter fun c => !isBlank c := by
  induction s with
  | nil => rfl
  | cons c s ih =>
    obtain ⟨gap, hgap, hcollapse⟩ := collapse_append [c] s
    have hnone : gap.filter (fun c => !isBlank c) = [] :=
      List.filter_eq_nil_iff.2 fun d hd => by simp [isBlank_of_mem_gap hgap d hd]
    rw [← List.singleton_append, hcollapse, List.filter_append, List.filter_append, hnone, ih,
      List.append_nil, List.filter_append]
    congr 1
    cases hc : isBlank c with
    | true => rw [collapse_blank (List.forall_mem_singleton.2 hc)]; simp [hc]
    | false => rw [collapse_solid (List.forall_mem_singleton.2 hc)]

theorem mem_collapse {s : Text} {c : Char} (h : c ∈ collapse s) :
    c = ' ' ∨ (c ∈ s ∧ isBlank c = false) := by
  induction s with
  | nil => cases h
  | cons d s ih =>
    obtain ⟨gap, hgap, hcollapse⟩ := collapse_append [d] s
    rw [← List.singleton_append, hcollapse, List.append_assoc, List.mem_append,
      List.mem_append] at h
    rcases h with h | h | h
    · cases hd : isBlank d with
      | true =>
        rw [collapse_blank (List.forall_mem_singleton.2 hd)] at h
        cases h
      | false =>
        rw [collapse_solid (List.forall_mem_singleton.2 hd), List.mem_singleton] at h
        exact .inr ⟨h ▸ List.mem_cons_self, h ▸ hd⟩
    · rcases hgap with rfl | rfl
      · cases h
      · exact .inl (List.mem_singleton.1 h)
    · exact (ih h).imp_right fun ⟨hmem, hc⟩ => ⟨List.mem_cons_of_mem d hmem, hc⟩

theorem mem_collapse_iff {s : Text} {c : Char} (hc : isBlank c = false) :
    c ∈ collapse s ↔ c ∈ s := by
  have hmem : ∀ t : Text, c ∈ t ↔ c ∈ t.filter fun c => !isBlank c := fun t => by
    rw [List.mem_filter, hc]
    exact (and_iff_left rfl).symm
  rw [hmem (collapse s), filter_collapse, ← hmem]

theorem trimmed_collapse (s : Text) : Trimmed isBlank (collapse s) := by
  have hsolid : ∀ w ∈ words s, Solid w := fun w hw => solid_of_mem_words hw
  unfold collapse
  rcases List.eq_nil_or_concat' (words s) with hnil | ⟨ws, w, hw⟩
  · rw [hnil]
    exact .nil _
  have hlast : Trimmed isBlank w :=
    .of_forall (hsolid w (hw ▸ List.mem_append_right _ (List.mem_singleton_self w))).2
  rw [hw]
  cases ws with
  | nil =>
    rw [List.nil_append, joinWith_singleton]
    exact hlast
  | cons v vs =>
    have hv := hsolid v (hw ▸ List.mem_append_left _ List.mem_cons_self)
    have hwne := (hsolid w (hw ▸ List.mem_append_right _ (List.mem_singleton_self w))).1
    rw [joinWith_append (by simp) (by simp), joinWith_eq_spaced, joinWith_singleton,
      List.append_assoc v]
    exact Trimmed.append (.of_forall hv.2) hv.1 hlast hwne _

theorem trim_collapse (s : Text) : trim (collapse s) = collapse s := (trimmed_collapse s).trimOf_eq

/-- A text that starts with no blank keeps its start. -/
theorem exists_collapse_cons {c : Char} (hc : isBlank c = false) (s : Text) :
    ∃ t, collapse (c :: s) = c :: t := by
  obtain ⟨w, ws, hw⟩ := exists_words_cons hc s
  exact ⟨w ++ spaced ws, by rw [collapse, hw, joinWith_eq_spaced]; rfl⟩

/-! ## Clean names -/

/-- Blanks around a text do not count in its trimmed parts. -/
theorem map_trim_cutsAt {p : Char → Bool} {a b : Text}
    (ha : ∀ c ∈ a, isBlank c = true ∧ p c = false) (s : Text)
    (hb : ∀ c ∈ b, isBlank c = true ∧ p c = false) :
    (cutsAt p (a ++ s ++ b)).map trim = (cutsAt p s).map trim := by
  have hcutA : cutsAt p a = [] ++ [a] := cutsAt_of_forall fun c hc => (ha c hc).2
  have hcutB : cutsAt p b = b :: [] := cutsAt_of_forall fun c hc => (hb c hc).2
  have hblankA : ∀ c ∈ a, isBlank c = true := fun c hc => (ha c hc).1
  have hblankB : ∀ c ∈ b, isBlank c = true := fun c hc => (hb c hc).1
  obtain ⟨x, xs, hx⟩ := exists_cutsAt_first p s
  have hfirst : cutsAt p (a ++ s) = (a ++ x) :: xs := cutsAt_runs hcutA hx
  rcases List.eq_nil_or_concat' xs with rfl | ⟨ys, y, rfl⟩
  · have hone : cutsAt p (a ++ s ++ b) = [a ++ x ++ b] := by
      rw [← List.nil_append [_]] at hfirst
      exact cutsAt_runs hfirst hcutB
    rw [hone, hx, List.map_singleton, List.map_singleton, trim_surrounded hblankA x hblankB]
  · have hmany : cutsAt p (a ++ s ++ b) = (a ++ x) :: ys ++ [y ++ b] :=
      cutsAt_runs (hfirst.trans (List.cons_append ..)) hcutB
    have htrimX : trim (a ++ x) = trim x := by
      simpa using trim_surrounded hblankA x (List.forall_mem_nil _)
    have htrimY : trim (y ++ b) = trim y := by
      simpa using trim_surrounded (List.forall_mem_nil _) y hblankB
    rw [hmany, hx]
    simp [htrimX, htrimY]

theorem cleanName_of_not_mem {s : Text} (h : ':' ∉ s) : cleanName s = collapse s := by
  have hcolon : ∀ c ∈ collapse s, (c == ':') = false := by
    intro c hc
    rw [beq_eq_false_iff_ne]
    rintro rfl
    rcases mem_collapse hc with hc | ⟨hc, -⟩
    · cases hc
    · exact h hc
  rw [cleanName, cutsAt_of_forall hcolon, List.map_singleton, joinWith_singleton, trim_collapse]

/-- The parts around a colon are cleaned on their own. -/
theorem cleanName_colon (a b : Text) :
    cleanName (a ++ ':' :: b) = cleanName a ++ ':' :: cleanName b := by
  obtain ⟨x, hx, hleft⟩ := collapse_append a (':' :: b)
  obtain ⟨y, hy, hright⟩ := collapse_append [':'] b
  have hone : collapse [':'] = [':'] := collapse_solid (List.forall_mem_singleton.2 (by decide))
  have hgap : ∀ {gap : Text}, gap = [] ∨ gap = [' '] →
      ∀ c ∈ gap, isBlank c = true ∧ (c == ':') = false := by
    rintro _ (rfl | rfl)
    · exact List.forall_mem_nil _
    · exact List.forall_mem_singleton.2 (by decide)
  have hwhole : collapse (a ++ ':' :: b) = (collapse a ++ x) ++ ':' :: (y ++ collapse b) := by
    rw [hleft, ← List.singleton_append, hright, hone]
    simp only [List.append_assoc, List.nil_append, List.cons_append]
  have hbefore : (cutsAt (· == ':') (collapse a ++ x)).map trim =
      (cutsAt (· == ':') (collapse a)).map trim := by
    simpa using map_trim_cutsAt (a := []) (List.forall_mem_nil _) (collapse a) (hgap hx)
  have hbehind : (cutsAt (· == ':') (y ++ collapse b)).map trim =
      (cutsAt (· == ':') (collapse b)).map trim := by
    simpa using map_trim_cutsAt (b := []) (hgap hy) (collapse b) (List.forall_mem_nil _)
  have hne : ∀ s, (cutsAt (· == ':') s).map trim ≠ [] := fun s h =>
    cutsAt_ne_nil _ s (List.map_eq_nil_iff.1 h)
  unfold cleanName
  rw [hwhole, cutsAt_append (by decide), List.map_append, hbefore, hbehind,
    joinWith_append (hne _) (hne _)]
  simp only [List.append_assoc, List.singleton_append]

/-- A text is cleaned from colon to colon. -/
theorem cleanName_induction {P : Text → Prop} (plain : ∀ s, ':' ∉ s → P s)
    (colon : ∀ a b, ':' ∉ a → P b → P (a ++ ':' :: b)) (s : Text) : P s := by
  induction h : s.length using Nat.strong_induction_on generalizing s with
  | _ n ih =>
    by_cases hs : ':' ∈ s
    · obtain ⟨a, b, rfl, ha⟩ := List.eq_append_cons_of_mem hs
      exact colon a b ha (ih b.length (by simp at h; omega) b rfl)
    · exact plain s hs

theorem cleanName_cleanName (s : Text) : cleanName (cleanName s) = cleanName s := by
  have hplain : ∀ s, ':' ∉ s → cleanName (cleanName s) = cleanName s := by
    intro s hs
    have hcollapse : ':' ∉ collapse s := by
      intro hc
      rcases mem_collapse hc with hc | ⟨hc, -⟩
      · cases hc
      · exact hs hc
    rw [cleanName_of_not_mem hs, cleanName_of_not_mem hcollapse, collapse_collapse]
  induction s using cleanName_induction with
  | plain s hs => exact hplain s hs
  | colon a b ha ih => rw [cleanName_colon, cleanName_colon, hplain a ha, ih]

theorem cleanName_solid {s : Text} (h : ∀ c ∈ s, isBlank c = false) : cleanName s = s := by
  induction s using cleanName_induction with
  | plain s hs => rw [cleanName_of_not_mem hs, collapse_solid h]
  | colon a b ha ih =>
    obtain ⟨hleft, hright⟩ := List.forall_mem_append.1 h
    rw [cleanName_colon, cleanName_of_not_mem ha, collapse_solid hleft,
      ih (List.forall_mem_cons.1 hright).2]

end Crosswalk.Text
