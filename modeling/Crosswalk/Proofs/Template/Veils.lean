import Crosswalk.Proofs.Template.Compiled

/-!
# Texts behind masks

A text is veiled when some of the tokens in it stand behind masks. `Veiled masks m s` says that `m`
is `s` with such tokens hidden, whatever the text is around them:

    Veiled masks (masks.hide s) s                                                  (veiled_hide)
    Veiled masks m s → masks.reveal m = s                                        (Veiled.reveal)

when the stem of the masks stands before no digit of `s`. What stands between braces in a veiled
text is again a veiled text (`Veiled.exists_braced`), and no token is left that has a mask
(`not_contains_hide`).
-/

namespace Crosswalk.Template

open Text

/-! ## Stems before digits -/

/-- The stem stands before no digit. -/
def Unnumbered (stem s : Text) : Prop :=
  ∀ d : Char, d.isDigit = true → contains (stem ++ [d]) s = false

theorem Unnumbered.of_append {stem a b : Text} (h : Unnumbered stem (a ++ b)) :
    Unnumbered stem a ∧ Unnumbered stem b :=
  ⟨fun d hd => (not_contains_append (h d hd)).1, fun d hd => (not_contains_append (h d hd)).2⟩

theorem unnumbered_of_not_contains {stem s : Text} (h : contains stem s = false) :
    Unnumbered stem s := by
  intro d _
  cases hc : contains (stem ++ [d]) s with
  | false => rfl
  | true =>
    obtain ⟨p, hp⟩ := Option.isSome_iff_exists.1 hc
    have hs := cut?_eq_some hp
    rw [hs, List.append_assoc, List.append_assoc, contains_middle] at h
    cases h

/-- A mask is its stem between underscores, with a digit after it. -/
theorem maskOf_eq (stem : Text) (i : Nat) :
    ∃ d ds, d.isDigit = true ∧
      maskOf stem i = '_' :: '_' :: (stem ++ [d]) ++ (ds ++ ['_', '_']) := by
  obtain ⟨d, ds, hd, hdigit⟩ := natText_eq i
  refine ⟨d, ds, hdigit, ?_⟩
  rw [maskOf, hd]
  simp only [List.cons_append, List.append_assoc, List.nil_append]

theorem isMask_maskOf {stem : Text} (hs : stem ∈ stems) (i : Nat) : IsMask (maskOf stem i) :=
  ⟨stem, hs, i, rfl⟩

/-! ## Veiled texts -/

/-- The first text is the second one with some tokens behind their masks. -/
inductive Veiled (masks : Masks) : Text → Text → Prop where
  | nil : Veiled masks [] []
  | plain (c : Char) {m s : Text} (h : Veiled masks m s) : Veiled masks (c :: m) (c :: s)
  | mask {p : Text × Text} {m s : Text} (hp : p ∈ masks) (h : Veiled masks m s) :
      Veiled masks (p.2 ++ m) (p.1 ++ s)

/-- Tokens between braces, each with a mask of the stem. -/
structure Masks.Hides (stem : Text) (masks : Masks) : Prop where
  stem_mem : stem ∈ stems
  token : ∀ p ∈ masks, (∃ x, p.1 = braced x) ∧ Unnumbered stem p.1
  word : ∀ p ∈ masks, ∃ i, p.2 = maskOf stem i

theorem Masks.Hides.isMask {stem : Text} {masks : Masks} (hm : masks.Hides stem)
    {p : Text × Text} (hp : p ∈ masks) : IsMask p.2 := by
  obtain ⟨i, hi⟩ := hm.word p hp
  exact hi ▸ isMask_maskOf hm.stem_mem i

theorem Masks.Hides.mono {stem : Text} {masks more : Masks} (h : more.Hides stem)
    (hsub : ∀ p ∈ masks, p ∈ more) : masks.Hides stem where
  stem_mem := h.stem_mem
  token := fun p hp => h.token p (hsub p hp)
  word := fun p hp => h.word p (hsub p hp)

variable {masks : Masks} {stem m s t : Text}

theorem veiled_self (masks : Masks) (s : Text) : Veiled masks s s := by
  induction s with
  | nil => exact .nil
  | cons c s ih => exact .plain c ih

theorem veiled_token {p : Text × Text} (hp : p ∈ masks) : Veiled masks p.2 p.1 := by
  have hnil : Veiled masks [] [] := .nil
  have hmask := Veiled.mask hp hnil
  rwa [List.append_nil, List.append_nil] at hmask

theorem Veiled.append {m' s' : Text} (h : Veiled masks m s) (h' : Veiled masks m' s') :
    Veiled masks (m ++ m') (s ++ s') := by
  induction h with
  | nil => exact h'
  | plain c _ ih => exact .plain c ih
  | mask hp _ ih =>
    rw [List.append_assoc, List.append_assoc]
    exact .mask hp ih

theorem Veiled.eq (h : Veiled [] m s) : m = s := by
  induction h with
  | nil => rfl
  | plain c _ ih => rw [ih]
  | mask hp => cases hp

/-- What differs from its veiled text holds a hidden token. -/
theorem Veiled.eq_or_contains (h : Veiled masks m s) :
    m = s ∨ ∃ p ∈ masks, contains p.2 m = true ∧ contains p.1 s = true := by
  induction h with
  | nil => exact .inl rfl
  | plain c _ ih =>
    rcases ih with ih | ⟨p, hp, hm, hs⟩
    · exact .inl (by rw [ih])
    · exact .inr ⟨p, hp, contains_append_left (a := [c]) _ hm,
        contains_append_left (a := [c]) _ hs⟩
  | mask hp _ _ =>
    exact .inr ⟨_, hp, contains_of_startsWith (startsWith_append _ _),
      contains_of_startsWith (startsWith_append _ _)⟩

/-! ## Where a veiled text is plain -/

/-- A stem with its digit, or an end of it, is read only where the text has it. -/
theorem Veiled.startsWith_stem (hm : ∀ p ∈ masks, IsMask p.2) (hs : stem ∈ stems) {d : Char}
    (hd : d.isDigit = true) {u a : Text} (hprobe : '_' :: (stem ++ [d]) = u ++ a)
    (h : Veiled masks m s) (ha : startsWith a m = true) : startsWith a s = true := by
  induction h generalizing u a with
  | nil => exact ha
  | plain c _ ih =>
    cases a with
    | nil => exact startsWith_nil _
    | cons y a =>
      obtain ⟨rfl, ha'⟩ := startsWith_cons.1 ha
      have hprobe' : '_' :: (stem ++ [d]) = (u ++ [y]) ++ a := by
        rw [hprobe, List.append_assoc, List.singleton_append]
      exact startsWith_cons.2 ⟨rfl, ih hprobe' ha'⟩
  | @mask p m s hp _ _ =>
    obtain ⟨r, hr⟩ := startsWith_iff.1 ha
    by_cases hne : a = []
    · rw [hne]
      exact startsWith_nil _
    · exact (Follows.not_end hs hd hprobe hne (hr ▸ (hm p hp).follows m)).elim

/-- No mask stands at the head of a text between braces, nor of an end of it. -/
theorem mask_ne_append (hs : stem ∈ stems) {x a z : Text} (hfree : Unnumbered stem (braced x))
    (ha : a <:+ braced x) (hne : a ≠ []) (i : Nat) : maskOf stem i ++ m ≠ a ++ z := by
  intro h
  obtain ⟨v, hv⟩ := ha
  rcases List.append_eq_append_iff.1 h with ⟨r, hr, -⟩ | ⟨r, hr, -⟩
  · obtain ⟨d, ds, hd, hmask⟩ := maskOf_eq stem i
    have hspells : contains (stem ++ [d]) (braced x) = true := by
      rw [← hv, hr, hmask]
      have hmid := contains_middle (v ++ ['_', '_']) (stem ++ [d]) (ds ++ ['_', '_'] ++ r)
      simpa only [List.append_assoc, List.cons_append, List.nil_append] using hmid
    rw [hfree d hd] at hspells
    cases hspells
  · have hclose : '}' ∈ a := by
      have hlast : (v ++ a).getLast? = some '}' := by
        rw [hv, braced, ← List.cons_append, ← List.cons_append, List.getLast?_append]
        rfl
      rw [List.getLast?_append, List.getLast?_eq_some_getLast hne, Option.some_or,
        Option.some.injEq] at hlast
      exact hlast ▸ List.getLast_mem hne
    exact (mem_mask (isMask_maskOf hs i) (hr ▸ List.mem_append_left r hclose)).2.2 rfl

/-- A text between braces, or an end of it, is read only where the text has it. -/
theorem Veiled.of_append (hm : masks.Hides stem) {x : Text}
    (hfree : Unnumbered stem (braced x)) {a : Text} (ha : a <:+ braced x)
    (h : Veiled masks (a ++ m) s) : ∃ s', s = a ++ s' ∧ Veiled masks m s' := by
  induction a generalizing s with
  | nil => exact ⟨s, rfl, h⟩
  | cons y a ih =>
    generalize hM : y :: a ++ m = M at h
    cases h with
    | nil => cases hM
    | plain c h =>
      obtain ⟨rfl, rfl⟩ := List.cons.inj hM
      obtain ⟨s', rfl, h'⟩ := ih ((List.suffix_cons y a).trans ha) h
      exact ⟨s', rfl, h'⟩
    | @mask p m' s' hp h =>
      obtain ⟨i, hi⟩ := hm.word p hp
      rw [hi] at hM
      exact absurd hM.symm (mask_ne_append hm.stem_mem hfree ha (List.cons_ne_nil y a) i)

/-! ## Hiding -/

theorem quiet_braced {w : Text} (hw : IsMask w) (x rest : Text) :
    Quiet (startsWith (braced x)) w rest :=
  (hw.solid.bare.quiet_open rest).braced x

/-- One more token goes behind its mask. -/
theorem Veiled.replaceAll (hm : masks.Hides stem) {x w : Text}
    (hfree : Unnumbered stem (braced x)) (h : Veiled masks m s) :
    Veiled (masks ++ [(braced x, w)]) (replaceAll (braced x) w m) s := by
  induction hn : m.length using Nat.strongRecOn generalizing m s with
  | ind n ih =>
    have hpos : 0 < (braced x).length := List.length_pos_iff.2 (braced_ne_nil x)
    cases hs : startsWith (braced x) m with
    | true =>
      obtain ⟨r, rfl⟩ := startsWith_iff.1 hs
      obtain ⟨s', rfl, h'⟩ := h.of_append hm hfree (List.suffix_refl _)
      rw [replaceAll_append_self _ (braced_ne_nil x)]
      refine .mask (p := (braced x, w)) (by simp) (ih r.length ?_ h' rfl)
      rw [← hn, List.length_append]
      omega
    | false =>
      cases h with
      | nil =>
        rw [replaceAll_nil (braced_ne_nil x)]
        exact .nil
      | @plain c m s h =>
        rw [replaceAll_cons (braced_ne_nil x) hs]
        exact .plain c (ih m.length (by rw [← hn, List.length_cons]; omega) h rfl)
      | @mask p m s hp h =>
        have hlength := List.length_pos_iff.2 (hm.isMask hp).solid.nonempty
        rw [replaceAll_quiet (braced_ne_nil x) (quiet_braced (hm.isMask hp) x m)]
        refine .mask (List.mem_append_left _ hp) (ih m.length ?_ h rfl)
        rw [← hn, List.length_append]
        omega

/-- **Hidden tokens** veil a text. -/
theorem veiled_hide (hm : masks.Hides stem) (s : Text) : Veiled masks (masks.hide s) s := by
  have hfold : ∀ more : Masks, ∀ done m, (done ++ more).Hides stem → Veiled done m s →
      Veiled (done ++ more) (more.hide m) s := by
    intro more
    induction more with
    | nil =>
      intro done m _ h
      rw [List.append_nil]
      exact h
    | cons p more ih =>
      intro done m hm h
      have hp : p ∈ done ++ p :: more := by simp
      obtain ⟨⟨x, hx⟩, hfree⟩ := hm.token p hp
      rw [List.append_cons] at hm ⊢
      have hstep : Veiled (done ++ [p]) (Text.replaceAll p.1 p.2 m) s := by
        obtain ⟨t, w⟩ := p
        obtain rfl : t = braced x := hx
        exact h.replaceAll (hm.mono fun q hq => by simp [hq]) hfree
      exact ih _ _ hm hstep
  exact hfold masks [] s hm (veiled_self [] s)

/-- A replaced token comes in no other way, and none is left of the one that is replaced. -/
theorem not_contains_replaceAll (hs : stem ∈ stems) {x w : Text}
    (hfree : Unnumbered stem (braced x)) (hw : ∃ i, w = maskOf stem i) (ht : t ≠ [])
    (h : t = braced x ∨ contains (braced x) s = false) :
    contains (braced x) (replaceAll t w s) = false := by
  obtain ⟨i, rfl⟩ := hw
  have hmask := isMask_maskOf hs i
  have hboth : (∀ a, a <:+ braced x → startsWith a (replaceAll t (maskOf stem i) s) = true →
        startsWith a s = true) ∧
      ((t = braced x ∨ contains (braced x) s = false) →
        contains (braced x) (replaceAll t (maskOf stem i) s) = false) := by
    refine replaceAll_induction ht
      (motive := fun s r => (∀ a, a <:+ braced x → startsWith a r = true → startsWith a s = true) ∧
        ((t = braced x ∨ contains (braced x) s = false) → contains (braced x) r = false))
      ⟨fun a _ ha => ha, fun _ => ?_⟩ (fun s r ih => ⟨fun a hax ha => ?_, fun h => ?_⟩)
      (fun c s r hstart ih => ?_) s
    · obtain ⟨c, y, hy⟩ := List.exists_cons_of_ne_nil (braced_ne_nil x)
      rw [hy]
      rfl
    · by_cases hne : a = []
      · rw [hne]
        exact startsWith_nil _
      · obtain ⟨z, hz⟩ := startsWith_iff.1 ha
        exact absurd hz (mask_ne_append hs hfree hax hne i)
    · rw [contains_quiet (quiet_braced hmask x r)]
      exact ih.2 (h.imp_right fun h => (not_contains_append h).2)
    · have hends : ∀ a, a <:+ braced x → startsWith a (c :: r) = true →
          startsWith a (c :: s) = true := by
        intro a hax ha
        cases a with
        | nil => exact startsWith_nil _
        | cons y a =>
          obtain ⟨rfl, ha'⟩ := startsWith_cons.1 ha
          exact startsWith_cons.2 ⟨rfl, ih.1 a ((List.suffix_cons y a).trans hax) ha'⟩
      refine ⟨hends, fun h => ?_⟩
      have hhead : startsWith (braced x) (c :: s) = false := by
        rcases h with rfl | h
        · exact hstart
        · rw [contains_cons, Bool.or_eq_false_iff] at h
          exact h.1
      have htail : contains (braced x) r = false := by
        refine ih.2 (h.imp_right fun h => ?_)
        rw [contains_cons, Bool.or_eq_false_iff] at h
        exact h.2
      rw [contains_cons, htail, Bool.or_false]
      exact Bool.eq_false_iff.2 fun ha =>
        absurd (hends _ (List.suffix_refl _) ha) (by rw [hhead]; decide)
  exact hboth.2 h

theorem not_contains_hide (hm : masks.Hides stem) {p : Text × Text} (hp : p ∈ masks) (s : Text) :
    contains p.1 (masks.hide s) = false := by
  obtain ⟨⟨x, hx⟩, hfree⟩ := hm.token p hp
  rw [hx] at hfree ⊢
  have hne : ∀ q ∈ masks, q.1 ≠ [] := by
    intro q hq
    obtain ⟨⟨y, hy⟩, -⟩ := hm.token q hq
    exact hy ▸ braced_ne_nil y
  have hkept : ∀ more : Masks, (∀ q ∈ more, q ∈ masks) → ∀ m, contains (braced x) m = false →
      contains (braced x) (more.hide m) = false := by
    intro more
    induction more with
    | nil => exact fun _ m h => h
    | cons q more ih =>
      intro hsub m h
      have hq := hsub q List.mem_cons_self
      exact ih (fun r hr => hsub r (List.mem_cons_of_mem q hr)) _
        (not_contains_replaceAll hm.stem_mem hfree (hm.word q hq) (hne q hq) (.inr h))
  obtain ⟨before, after, hmasks⟩ := List.append_of_mem hp
  have hhide : masks.hide s = Masks.hide after (Text.replaceAll p.1 p.2 (Masks.hide before s)) := by
    rw [hmasks]
    exact List.foldl_append
  rw [hhide]
  refine hkept after (fun q hq => by rw [hmasks]; simp [hq]) _ ?_
  exact not_contains_replaceAll hm.stem_mem hfree (hm.word p hp) (hne p hp) (.inl hx)

/-! ## Revealing -/

/-- Behind a part without its capital no mask starts, when it ends with underscores. -/
theorem quiet_capital {x : Char} {u w rest : Text} (hx : x ∉ u) (hcapital : x ≠ '_') :
    Quiet (startsWith ('_' :: '_' :: x :: w)) u ('_' :: '_' :: rest) := by
  induction u with
  | nil => exact trivial
  | cons c u ih =>
    refine ⟨Bool.eq_false_iff.2 fun h => ?_, ih fun h => hx (List.mem_cons_of_mem c h)⟩
    obtain ⟨-, h⟩ := startsWith_cons.1 h
    match u, h with
    | [], h => exact hcapital (startsWith_cons.1 (startsWith_cons.1 h).2).1
    | [_], h => exact hcapital (startsWith_cons.1 (startsWith_cons.1 h).2).1
    | a :: b :: u, h =>
      refine hx ?_
      rw [(startsWith_cons.1 (startsWith_cons.1 h).2).1]
      simp

/-- Another mask of the stem does not start in a mask, nor between its end and what follows. -/
theorem quiet_maskOf (hs : stem ∈ stems) {i j : Nat} (hne : maskOf stem i ≠ maskOf stem j)
    {rest : Text} (hrest : ∀ d u a, d.isDigit = true → '_' :: (stem ++ [d]) = u ++ a →
      stem ++ [d] <:+ a → startsWith a rest = false) :
    Quiet (startsWith (maskOf stem i)) (maskOf stem j) rest := by
  have hhead := startsWith_mask (isMask_maskOf hs i) (isMask_maskOf hs j) hne rest
  obtain ⟨d, ds, hd, hmask⟩ := maskOf_eq stem i
  have hprobe : ∀ z, startsWith (maskOf stem i) z = true →
      startsWith ('_' :: '_' :: (stem ++ [d])) z = true := by
    intro z hz
    rw [hmask] at hz
    exact startsWith_of_append hz
  have hends : Quiet (startsWith (maskOf stem i)) ['_', '_'] rest := by
    refine ⟨Bool.eq_false_iff.2 fun h => ?_, Bool.eq_false_iff.2 fun h => ?_, trivial⟩
    · have hstem : startsWith (stem ++ [d]) rest = true :=
        (startsWith_cons.1 (startsWith_cons.1 (hprobe _ h)).2).2
      rw [hrest d ['_'] (stem ++ [d]) hd rfl (List.suffix_refl _)] at hstem
      cases hstem
    · have hstem : startsWith ('_' :: (stem ++ [d])) rest = true :=
        (startsWith_cons.1 (hprobe _ h)).2
      rw [hrest d [] _ hd rfl (List.suffix_cons _ _)] at hstem
      cases hstem
  obtain ⟨x, y, rfl, hx, hV, hT⟩ := stem_eq hs
  have hcapital : x ≠ '_' := by rcases hx with rfl | rfl <;> decide
  have hinside : x ∉ y ++ natText j := by
    intro h
    rcases List.mem_append.1 h with h | h
    · rcases hx with rfl | rfl
      · exact hV h
      · exact hT h
    · have hdigit := ne_of_isDigit (isDigit_natText h)
      exact hx.elim hdigit.2.1 hdigit.2.2.1
  have hbody : Quiet (startsWith (maskOf (x :: y) i)) (y ++ natText j) ('_' :: '_' :: rest) :=
    quiet_capital hinside hcapital
  have hsplit : maskOf (x :: y) j = '_' :: '_' :: x :: (y ++ natText j ++ ['_', '_']) := by
    simp [maskOf]
  rw [hsplit] at hhead ⊢
  refine ⟨hhead, Bool.eq_false_iff.2 fun h => ?_, Bool.eq_false_iff.2 fun h => ?_,
    quiet_append.2 ⟨hbody, hends⟩⟩
  · exact hcapital (startsWith_cons.1 (startsWith_cons.1 (hprobe _ h)).2).1.symm
  · exact hcapital (startsWith_cons.1 (hprobe _ h)).1.symm

/-- Behind a place of a veiled text no stem stands with its digit. -/
theorem Veiled.not_startsWith_stem (hm : masks.Hides stem) (hfree : Unnumbered stem s)
    (h : Veiled masks m s) (d : Char) (u a : Text) (hd : d.isDigit = true)
    (hprobe : '_' :: (stem ++ [d]) = u ++ a) (ha : stem ++ [d] <:+ a) : startsWith a m = false := by
  refine Bool.eq_false_iff.2 fun hstart => ?_
  have hs := h.startsWith_stem (fun p hp => hm.isMask hp) hm.stem_mem hd hprobe hstart
  obtain ⟨v, rfl⟩ := ha
  obtain ⟨r, rfl⟩ := startsWith_iff.1 hs
  have hspells := hfree d hd
  rw [List.append_assoc, contains_middle] at hspells
  cases hspells

/-- One mask is replaced by its token. -/
theorem Veiled.reveal_cons {p : Text × Text} (hm : Masks.Hides stem (p :: masks))
    (hp : ∀ q ∈ masks, q.2 ≠ p.2) (hfree : Unnumbered stem s) (h : Veiled (p :: masks) m s) :
    Veiled masks (Text.replaceAll p.2 p.1 m) s := by
  have hword := hm.word p List.mem_cons_self
  have hne : p.2 ≠ [] := (hm.isMask List.mem_cons_self).solid.nonempty
  induction h with
  | nil =>
    rw [replaceAll_nil hne]
    exact .nil
  | @plain c m s h ih =>
    have hfree' : Unnumbered stem s := (hfree.of_append (a := [c])).2
    have hstart : startsWith p.2 (c :: m) = false := by
      refine Bool.eq_false_iff.2 fun hstart => ?_
      obtain ⟨i, hi⟩ := hword
      obtain ⟨d, ds, hd, hmask⟩ := maskOf_eq stem i
      rw [hi, hmask] at hstart
      have hstem := (startsWith_cons.1 (startsWith_of_append hstart)).2
      rw [h.not_startsWith_stem hm hfree' d [] _ hd rfl (List.suffix_cons _ _)] at hstem
      cases hstem
    rw [replaceAll_cons hne hstart]
    exact .plain c (ih hfree')
  | @mask q m s hq h ih =>
    have hfree' : Unnumbered stem s := hfree.of_append.2
    rcases List.mem_cons.1 hq with rfl | hq
    · rw [replaceAll_append_self _ hne]
      exact (veiled_self masks _).append (ih hfree')
    · obtain ⟨i, hi⟩ := hword
      obtain ⟨j, hj⟩ := hm.word q (List.mem_cons_of_mem p hq)
      have hquiet : Quiet (startsWith p.2) q.2 m := by
        have hdiffer := hp q hq
        rw [hi, hj] at hdiffer ⊢
        exact quiet_maskOf hm.stem_mem hdiffer.symm (h.not_startsWith_stem hm hfree')
      rw [replaceAll_quiet hne hquiet]
      exact .mask hq (ih hfree')

/-- **Revealed masks** give the text back. -/
theorem Veiled.reveal (hm : masks.Hides stem) (hnodup : (masks.map (·.2)).Nodup)
    (hfree : Unnumbered stem s) (h : Veiled masks m s) : masks.reveal m = s := by
  induction masks generalizing m with
  | nil => exact h.eq
  | cons p masks ih =>
    obtain ⟨hp, hnodup⟩ := List.nodup_cons.1 hnodup
    have hdiffer : ∀ q ∈ masks, q.2 ≠ p.2 := fun q hq he =>
      hp (List.mem_map.2 ⟨q, hq, he⟩)
    exact ih (hm.mono fun q hq => List.mem_cons_of_mem p hq) hnodup (h.reveal_cons hm hdiffer hfree)

/-- Masks bring in no stem with a digit but their own. -/
theorem Veiled.unnumbered (hm : ∀ p ∈ masks, IsMask p.2) (hs : stem ∈ stems)
    (hcapital : ∀ p ∈ masks, ∀ c ∈ stem.head?, c ∉ p.2) (hfree : Unnumbered stem s)
    (h : Veiled masks m s) : Unnumbered stem m := by
  intro d hd
  induction h with
  | nil => exact hfree d hd
  | @plain c m s h ih =>
    have hhead : startsWith (stem ++ [d]) (c :: m) = false := by
      refine Bool.eq_false_iff.2 fun hstart => ?_
      have hplain := (Veiled.plain c h).startsWith_stem (a := stem ++ [d]) hm hs hd
        (u := ['_']) rfl hstart
      have hspells := hfree d hd
      rw [contains_of_startsWith hplain] at hspells
      cases hspells
    rw [contains_cons, hhead, ih (hfree.of_append (a := [c])).2]
    rfl
  | @mask p m s hp _ ih =>
    obtain ⟨x, y, rfl, -⟩ := stem_eq hs
    have hquiet : Quiet (startsWith (x :: y ++ [d])) p.2 m := by
      refine quiet_of_forall fun c hc t => Bool.eq_false_iff.2 fun hstart => ?_
      exact hcapital p hp x rfl ((startsWith_cons.1 hstart).1 ▸ hc)
    rw [contains_quiet hquiet]
    exact ih hfree.of_append.2

/-! ## Parts of a veiled text -/

/-- At a character of no mask a veiled text is cut with its text. -/
theorem Veiled.split {c : Char} (hc : ∀ p ∈ masks, c ∉ p.2) {a b : Text}
    (h : Veiled masks (a ++ c :: b) s) :
    ∃ s₁ s₂, s = s₁ ++ c :: s₂ ∧ Veiled masks a s₁ ∧ Veiled masks b s₂ := by
  generalize hM : a ++ c :: b = M at h
  induction h generalizing a with
  | nil => simp at hM
  | @plain e m s h ih =>
    cases a with
    | nil =>
      obtain ⟨rfl, rfl⟩ := List.cons.inj hM
      exact ⟨[], s, rfl, .nil, h⟩
    | cons f a =>
      obtain ⟨rfl, hM'⟩ := List.cons.inj hM
      obtain ⟨s₁, s₂, rfl, h₁, h₂⟩ := ih hM'
      exact ⟨f :: s₁, s₂, rfl, .plain f h₁, h₂⟩
  | @mask p m s hp h ih =>
    rcases List.append_eq_append_iff.1 hM with ⟨r, hr, hrest⟩ | ⟨r, rfl, hrest⟩
    · cases r with
      | nil =>
        obtain ⟨s₁, s₂, rfl, h₁, h₂⟩ := ih (a := []) hrest
        refine ⟨p.1 ++ s₁, s₂, (List.append_assoc _ _ _).symm, ?_, h₂⟩
        rw [List.append_nil] at hr
        have hmask := Veiled.mask hp h₁
        rwa [List.append_nil, hr] at hmask
      | cons f r =>
        obtain ⟨rfl, -⟩ := List.cons.inj hrest
        exact absurd (by rw [hr]; simp) (hc p hp)
    · obtain ⟨s₁, s₂, rfl, h₁, h₂⟩ := ih hrest.symm
      exact ⟨p.1 ++ s₁, s₂, (List.append_assoc _ _ _).symm, .mask hp h₁, h₂⟩

theorem Veiled.eq_nil (hm : ∀ p ∈ masks, p.2 ≠ []) (h : Veiled masks [] s) : s = [] := by
  generalize hM : ([] : Text) = M at h
  cases h with
  | nil => rfl
  | plain c h => cases hM
  | mask hp h => exact absurd (List.append_eq_nil_iff.1 hM.symm).1 (hm _ hp)

/-- What stands between braces stands between braces in the text. -/
theorem Veiled.exists_braced (hm : masks.Hides stem) {a x b : Text}
    (h : Veiled masks (a ++ braced x ++ b) s) :
    ∃ s₁ y s₂, s = s₁ ++ braced y ++ s₂ ∧ Veiled masks (braced x) (braced y) := by
  have hopen : ∀ p ∈ masks, '{' ∉ p.2 := fun p hp hc => (mem_mask (hm.isMask hp) hc).2.1 rfl
  have hclose : ∀ p ∈ masks, '}' ∉ p.2 := fun p hp hc => (mem_mask (hm.isMask hp) hc).2.2 rfl
  have hword : ∀ p ∈ masks, p.2 ≠ [] := fun p hp => (hm.isMask hp).solid.nonempty
  have hfirst : a ++ braced x ++ b = a ++ '{' :: ('{' :: (x ++ '}' :: '}' :: b)) := by
    simp [braced]
  rw [hfirst] at h
  obtain ⟨s₁, t, rfl, -, h⟩ := h.split hopen
  obtain ⟨e, t, rfl, he, h⟩ := h.split (a := []) hopen
  obtain ⟨y, t, rfl, hy, h⟩ := h.split hclose
  obtain ⟨e', s₂, rfl, he', -⟩ := h.split (a := []) hclose
  rw [he.eq_nil hword, he'.eq_nil hword]
  refine ⟨s₁, y, s₂, by simp [braced], .plain '{' (.plain '{' ?_)⟩
  exact hy.append (veiled_self masks ['}', '}'])

end Crosswalk.Template
