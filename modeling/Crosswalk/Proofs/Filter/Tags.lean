import Crosswalk.Filter.Pipeline
import Crosswalk.Host.Bundled
import Crosswalk.Proofs.Text.Mark

/-!
# Texts without tags

The filter `striptags` takes comments and tags out of a text, from the left: a comment up to the
first mark that closes it, otherwise a tag up to the first `>`. `Strips s t` says this one step at a
time, whatever the comments and tags hold and where they overlap, and the filter computes it:

    Strips s t ↔ stripTags s = t                                                        (strips_iff)

A `<` with a `>` behind it opens a tag at least (`exists_opened_iff`). So one that is kept has none
behind it, and nothing that is taken out further on can bring one there:

    Strips s t → Untagged t                                                        (Strips.untagged)

Such a text has nothing to take out, so the filter leaves it as it is (`striptags_untagged`).
-/

namespace Crosswalk.Filter

open Text

variable {s t u : Text} {c : Char}

/-! ## Comments and tags -/

/-- A comment ends at the first mark that closes it. -/
def IsComment (u : Text) : Prop :=
  ∃ x, u = commentOpen ++ (x ++ commentClose) ∧ contains commentClose x = false

/-- A tag ends at its first `>`. -/
def IsTag (u : Text) : Prop := ∃ x, u = '<' :: (x ++ ['>']) ∧ '>' ∉ x

/-- `t` is left of `s` when its comments and tags are taken out from the left. -/
inductive Strips : Text → Text → Prop where
  | nil : Strips [] []
  | comment {u s t : Text} (hu : IsComment u) (h : Strips s t) : Strips (u ++ s) t
  | tag {u s t : Text} (hu : IsTag u) (hcomment : ∀ v, IsComment v → ¬ v <+: u ++ s)
      (h : Strips s t) : Strips (u ++ s) t
  | char {c : Char} {s t : Text} (hnone : ∀ v, IsComment v ∨ IsTag v → ¬ v <+: c :: s)
      (h : Strips s t) : Strips (c :: s) (c :: t)

/-- No `<` stands before a `>`, however far away. -/
def Untagged (s : Text) : Prop := s.Pairwise fun c d => ¬ (c = '<' ∧ d = '>')

instance (s : Text) : Decidable (Untagged s) := inferInstanceAs (Decidable (s.Pairwise _))

theorem exists_inside (h : IsComment u ∨ IsTag u) : ∃ x, u = '<' :: (x ++ ['>']) := by
  rcases h with ⟨x, rfl, -⟩ | ⟨x, rfl, -⟩
  · exact ⟨'!' :: '-' :: '-' :: (x ++ ['-', '-']), by simp [commentOpen, commentClose]⟩
  · exact ⟨x, rfl⟩

/-- Whatever a comment or a tag holds, there is one exactly where a `>` stands behind a `<`. -/
theorem exists_opened_iff :
    (∃ v, (IsComment v ∨ IsTag v) ∧ v <+: c :: s) ↔ c = '<' ∧ '>' ∈ s := by
  constructor
  · rintro ⟨v, hv, z, hz⟩
    obtain ⟨x, rfl⟩ := exists_inside hv
    obtain ⟨rfl, rfl⟩ := List.cons.inj hz
    exact ⟨rfl, by simp⟩
  · rintro ⟨rfl, hs⟩
    obtain ⟨x, z, rfl, hx⟩ := List.eq_append_cons_of_mem hs
    exact ⟨'<' :: (x ++ ['>']), .inr ⟨x, rfl, hx⟩, z, by simp⟩

/-! ## What is left -/

theorem Strips.sublist (h : Strips s t) : t.Sublist s := by
  induction h with
  | nil => exact .slnil
  | comment _ _ ih => exact ih.trans (List.sublist_append_right _ _)
  | tag _ _ _ ih => exact ih.trans (List.sublist_append_right _ _)
  | char _ _ ih => exact ih.cons_cons _

theorem Strips.untagged (h : Strips s t) : Untagged t := by
  induction h with
  | nil => exact .nil
  | comment _ _ ih => exact ih
  | tag _ _ _ ih => exact ih
  | @char c s t hnone h ih =>
    refine .cons ?_ ih
    rintro d hd ⟨rfl, rfl⟩
    -- The `>` stood behind the `<` in the text already.
    obtain ⟨v, hv, hprefix⟩ := exists_opened_iff.2 ⟨rfl, h.sublist.subset hd⟩
    exact hnone v hv hprefix

theorem Untagged.strips (h : Untagged s) : Strips s s := by
  induction s with
  | nil => exact .nil
  | cons c s ih =>
    obtain ⟨hc, hs⟩ := List.pairwise_cons.1 h
    refine .char (fun v hv hprefix => ?_) (ih hs)
    obtain ⟨rfl, hclose⟩ := exists_opened_iff.1 ⟨v, hv, hprefix⟩
    exact hc '>' hclose ⟨rfl, rfl⟩

/-! ## The form -/

/-- The form of comments and tags. -/
def tagForm : Form Unit := fun t => (tagLength? t).map fun n => ((), n)

theorem erase_cons {c : Char} (h : tagLength? (c :: s) = none) :
    erase tagForm (c :: s) = c :: erase tagForm s := by
  have hreads : reads tagForm (c :: s) = false := by
    rw [reads, tagForm, h]
    rfl
  unfold erase substitute
  rw [pieces_cons hreads]
  rfl

theorem erase_tag {u : Text} (hu : u ≠ []) (h : tagLength? (u ++ s) = some u.length) :
    erase tagForm (u ++ s) = erase tagForm s := by
  have hform : tagForm (u ++ s) = some ((), u.length) := by
    rw [tagForm, h]
    rfl
  unfold erase substitute
  rw [pieces_found hu hform]
  rfl

/-- The length of a comment, and what is left behind it. -/
theorem tagLength?_comment {a b r : Text} (hopen : after? commentOpen s = some r)
    (hclose : cut? commentClose r = some (a, b)) :
    tagLength? s = some (commentOpen ++ (a ++ commentClose)).length ∧
      s = commentOpen ++ (a ++ commentClose) ++ b := by
  refine ⟨?_, ?_⟩
  · unfold tagLength?
    rw [hopen, Option.bind_some, Text.find?, hclose]
    simp [commentOpen, commentClose]
  · rw [after?_eq_some.1 hopen, cut?_eq_some hclose]
    simp only [List.append_assoc]

theorem tagLength?_no_comment
    (h : (after? commentOpen ('<' :: s)).bind (cut? commentClose) = none) :
    tagLength? ('<' :: s) = (cut? ['>'] s).map fun p => p.1.length + 2 := by
  have hfind : (after? commentOpen ('<' :: s)).bind (Text.find? commentClose) = none := by
    cases hopen : after? commentOpen ('<' :: s) with
    | none => rfl
    | some r =>
      rw [hopen, Option.bind_some] at h
      rw [Option.bind_some, Text.find?, h]
      rfl
  unfold tagLength?
  rw [hfind]
  simp only [cutChar?_eq_cut?]

theorem tagLength?_of_ne {c : Char} (hc : c ≠ '<') : tagLength? (c :: s) = none := by
  have hopen : after? commentOpen (c :: s) = none := by
    rw [commentOpen, after?, if_neg (Ne.symm hc)]
  unfold tagLength?
  rw [hopen]
  simp [hc]

theorem erase_word {w : Text} (hw : '<' ∉ w) : erase tagForm (w ++ s) = w ++ erase tagForm s := by
  induction w with
  | nil => rfl
  | cons c w ih =>
    obtain ⟨hc, hw⟩ := not_or.1 (mt List.mem_cons.2 hw)
    rw [List.cons_append, erase_cons (tagLength?_of_ne (Ne.symm hc)), ih hw, List.cons_append]

/-! ## What the form reads -/

/-- The mark that closes a comment is not read before its end: it would be there already. -/
theorem cut?_commentClose {x : Text} (h : contains commentClose x = false) (s : Text) :
    cut? commentClose (x ++ (commentClose ++ s)) = some (x, s) := by
  induction x with
  | nil => exact cut?_append commentClose s
  | cons c x ih =>
    rw [contains_cons, Bool.or_eq_false_iff] at h
    have hstart : startsWith commentClose (c :: (x ++ (commentClose ++ s))) = false := by
      obtain ⟨hhead, -⟩ := h
      rcases x with _ | ⟨d, _ | ⟨e, x⟩⟩
      · simp [startsWith, after?, commentClose]
      · simp [startsWith, after?, commentClose]
      · simpa [startsWith, after?, commentClose] using hhead
    rw [List.cons_append, cut?_cons hstart, ih h.2]
    rfl

theorem tagLength?_of_isComment (hu : IsComment u) (s : Text) :
    tagLength? (u ++ s) = some u.length := by
  obtain ⟨x, rfl, hx⟩ := hu
  have hopen : after? commentOpen (commentOpen ++ (x ++ commentClose) ++ s) =
      some (x ++ (commentClose ++ s)) := by
    rw [after?_eq_some]
    simp only [List.append_assoc]
  exact (tagLength?_comment hopen (cut?_commentClose hx s)).1

/-- Where no comment stands, none is read. -/
theorem no_comment (h : ∀ v, IsComment v → ¬ v <+: s) :
    (after? commentOpen s).bind (cut? commentClose) = none := by
  cases hopen : after? commentOpen s with
  | none => rfl
  | some r =>
    cases hclose : cut? commentClose r with
    | none => exact hclose
    | some p =>
      have hcomment : IsComment (commentOpen ++ (p.1 ++ commentClose)) :=
        ⟨p.1, rfl, not_contains_of_cut? (by decide) hclose⟩
      exact absurd ⟨p.2, (tagLength?_comment hopen hclose).2.symm⟩ (h _ hcomment)

theorem tagLength?_of_isTag (hu : IsTag u) (hcomment : ∀ v, IsComment v → ¬ v <+: u ++ s) :
    tagLength? (u ++ s) = some u.length := by
  obtain ⟨x, rfl, hx⟩ := hu
  have hnone := no_comment hcomment
  have htext : '<' :: (x ++ ['>']) ++ s = '<' :: (x ++ '>' :: s) := by simp
  rw [htext] at hnone ⊢
  rw [tagLength?_no_comment hnone, ← cutChar?_eq_cut?, cutChar?_of_not_mem hx]
  simp

theorem tagLength?_of_none (hnone : ∀ v, IsComment v ∨ IsTag v → ¬ v <+: c :: s) :
    tagLength? (c :: s) = none := by
  by_cases hc : c = '<'
  · subst hc
    have hclose : '>' ∉ s := fun hs => by
      obtain ⟨v, hv, hprefix⟩ := exists_opened_iff.2 ⟨rfl, hs⟩
      exact hnone v hv hprefix
    rw [tagLength?_no_comment (no_comment fun v hv => hnone v (.inl hv)), Option.map_eq_none_iff]
    cases hcut : cut? ['>'] s with
    | none => rfl
    | some p => exact absurd (cut?_eq_some hcut ▸ by simp) hclose
  · exact tagLength?_of_ne hc

/-- What is left is computed by the filter, whichever way it is found. -/
theorem Strips.stripTags_eq (h : Strips s t) : stripTags s = t := by
  show erase tagForm s = t
  induction h with
  | nil => rfl
  | @comment u s t hu _ ih =>
    obtain ⟨x, hx⟩ := exists_inside (.inl hu)
    have hne : u ≠ [] := by simp [hx]
    rw [erase_tag hne (tagLength?_of_isComment hu s), ih]
  | @tag u s t hu hcomment _ ih =>
    obtain ⟨x, hx⟩ := exists_inside (.inr hu)
    have hne : u ≠ [] := by simp [hx]
    rw [erase_tag hne (tagLength?_of_isTag hu hcomment), ih]
  | char hnone _ ih => rw [erase_cons (tagLength?_of_none hnone), ih]

theorem exists_strips (s : Text) : ∃ t, Strips s t := by
  induction hn : s.length using Nat.strongRecOn generalizing s with
  | ind n ih =>
    -- What stands behind a comment or a tag is shorter.
    have hbehind : ∀ u z, IsComment u ∨ IsTag u → u ++ z = s → ∃ t, Strips z t := by
      rintro u z hu rfl
      obtain ⟨x, rfl⟩ := exists_inside hu
      exact ih z.length (by rw [← hn]; simp; omega) z rfl
    by_cases hcomment : ∃ v, IsComment v ∧ v <+: s
    · obtain ⟨u, hu, z, hz⟩ := hcomment
      obtain ⟨t, ht⟩ := hbehind u z (.inl hu) hz
      exact ⟨t, hz ▸ .comment hu ht⟩
    · have hnocomment : ∀ v, IsComment v → ¬ v <+: s := fun v hv hp => hcomment ⟨v, hv, hp⟩
      by_cases htag : ∃ v, IsTag v ∧ v <+: s
      · obtain ⟨u, hu, z, hz⟩ := htag
        obtain ⟨t, ht⟩ := hbehind u z (.inr hu) hz
        exact ⟨t, hz ▸ .tag hu (hz ▸ hnocomment) ht⟩
      · cases s with
        | nil => exact ⟨[], .nil⟩
        | cons c s =>
          obtain ⟨t, ht⟩ := ih s.length (by rw [← hn]; simp) s rfl
          refine ⟨c :: t, .char (fun v hv hp => ?_) ht⟩
          rcases hv with hv | hv
          · exact hcomment ⟨v, hv, hp⟩
          · exact htag ⟨v, hv, hp⟩

theorem strips_iff : Strips s t ↔ stripTags s = t := by
  constructor
  · exact Strips.stripTags_eq
  · rintro rfl
    obtain ⟨t, ht⟩ := exists_strips s
    rw [ht.stripTags_eq]
    exact ht

/-! ## The filter -/

theorem applyStep_striptags [Host] {scope : Scope} {step : Text}
    (h : (readCall step).1 = "striptags") (v : Datum) :
    applyStep scope v step = .ok (.text (stripTags v.first)) := by
  unfold applyStep
  dsimp only
  rw [h]
  rfl

/-- **No tag is left.** The filter takes the comments and tags out of a text, or of the first one
of a list, and no `<` of what it gives has a `>` behind it. So a second time it changes nothing. -/
theorem striptags_untagged [Host] {scope : Scope} {step : Text}
    (h : (readCall step).1 = "striptags") (v : Datum) :
    applyStep scope v step = .ok (.text (stripTags v.first)) ∧
      Strips v.first (stripTags v.first) ∧ Untagged (stripTags v.first) ∧
      applyStep scope (.text (stripTags v.first)) step = .ok (.text (stripTags v.first)) := by
  have hstrips : Strips v.first (stripTags v.first) := strips_iff.2 rfl
  have huntagged : Untagged (stripTags v.first) := hstrips.untagged
  have hagain : stripTags (stripTags v.first) = stripTags v.first := huntagged.strips.stripTags_eq
  refine ⟨applyStep_striptags h v, hstrips, huntagged, ?_⟩
  rw [applyStep_striptags h, Datum.first, hagain]

/-- A tag in a tag, tags in a comment, a comment that opens behind a tag, and a tag left open. -/
theorem striptags_untagged_nested :
    let s : Text := "a<b<i>c><!-- <p> -->d<<!--x>!--e> <f"
    let t : Text := "ac>d!--e> <f"
    (readCall "striptags").1 = "striptags" ∧
      applyStep ⟨[], []⟩ (.text s) "striptags" = .ok (.text t) ∧ Strips s t ∧ Untagged t ∧
      applyStep ⟨[], []⟩ (.text t) "striptags" = .ok (.text t) := by
  intro s t
  have hname : (readCall "striptags").1 = "striptags" := by decide
  have hvalue : stripTags s = t := by decide
  have hfilter := @striptags_untagged _ ⟨[], []⟩ "striptags" hname (.text s)
  rw [Datum.first, hvalue] at hfilter
  exact ⟨hname, hfilter⟩

end Crosswalk.Filter
