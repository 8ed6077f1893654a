import Crosswalk.Proofs.Number.Digits
import Crosswalk.Proofs.Template.Reading

/-!
# Masks

A mask is a stem between underscores with a number: it stands for a token while the expressions are
read. In a chain whose texts spell no stem, a mask can only be read where it was put, so that
revealing undoes hiding:

    fill ps (c.expression f) = c.expression fun t => look ps (f t)                (fill_masks)

where the pairs give each mask the token that it hides. What a text does at its end depends on what
may follow it there (`Follows`): a blank, a brace or the next mask.
-/

namespace Crosswalk.Template

open Text

/-! ## Mask words -/

def stems : List Text := [referenceWord, queryWord]

/-- The mask of a stem and a number. -/
def maskOf (stem : Text) (i : Nat) : Text := '_' :: '_' :: (stem ++ (natText i ++ ['_', '_']))

def IsMask (w : Text) : Prop := ∃ stem ∈ stems, ∃ i, w = maskOf stem i

theorem referenceMask_eq (i : Nat) : referenceMask i = maskOf referenceWord i := rfl

theorem queryMask_eq (i : Nat) : queryMask i = maskOf queryWord i := rfl

theorem isMask_reference (i : Nat) : IsMask (referenceMask i) :=
  ⟨referenceWord, by decide, i, referenceMask_eq i⟩

theorem isMask_query (i : Nat) : IsMask (queryMask i) :=
  ⟨queryWord, by decide, i, queryMask_eq i⟩

/-- A stem starts with a capital that it has nowhere else. -/
theorem stem_eq {stem : Text} (h : stem ∈ stems) :
    ∃ x s, stem = x :: s ∧ (x = 'V' ∨ x = 'T') ∧ 'V' ∉ s ∧ 'T' ∉ s := by
  rcases List.mem_cons.1 h with rfl | h
  · exact ⟨'V', "ariable__".toList, by decide, by decide, by decide, by decide⟩
  · rw [List.mem_singleton.1 h]
    exact ⟨'T', "o_Be_Replaced__".toList, by decide, by decide, by decide, by decide⟩

theorem stem_plain {stem : Text} (h : stem ∈ stems) : ' ' ∉ stem ∧ '{' ∉ stem ∧ '}' ∉ stem := by
  rcases List.mem_cons.1 h with rfl | h
  · decide
  · rw [List.mem_singleton.1 h]
    decide

theorem mem_mask {w : Text} (h : IsMask w) {c : Char} (hc : c ∈ w) :
    c ≠ ' ' ∧ c ≠ '{' ∧ c ≠ '}' := by
  obtain ⟨stem, hs, i, rfl⟩ := h
  obtain ⟨h1, h2, h3⟩ := stem_plain hs
  have hdigit : ∀ d : Char, d ∈ natText i → d ≠ ' ' ∧ d ≠ '{' ∧ d ≠ '}' := by
    intro d hd
    have := isDigit_natText hd
    refine ⟨?_, ?_, ?_⟩ <;> (rintro rfl; revert this; decide)
  simp only [maskOf, List.mem_cons, List.mem_append, List.not_mem_nil, or_false] at hc
  rcases hc with rfl | rfl | hc | hc | rfl | rfl
  · decide
  · decide
  · exact ⟨fun e => h1 (e ▸ hc), fun e => h2 (e ▸ hc), fun e => h3 (e ▸ hc)⟩
  · exact hdigit c hc
  · decide
  · decide

theorem IsMask.solid {w : Text} (h : IsMask w) : Solid w where
  nonempty := by
    obtain ⟨stem, _, i, rfl⟩ := h
    exact List.cons_ne_nil _ _
  bare := List.all_eq_true.2 fun c hc => by
    obtain ⟨_, h2, h3⟩ := mem_mask h hc
    simp [isBrace, h2, h3]
  unspaced := fun hc => (mem_mask h hc).1 rfl

/-! ## Where a mask may start -/

/-- The start of a mask, up to its first digit. -/
def maskAt (s : Text) : Bool :=
  stems.any fun stem => ((after? ('_' :: '_' :: stem) s).bind List.head?).any Char.isDigit

theorem maskAt_iff {s : Text} : maskAt s = true ↔
    ∃ stem ∈ stems, ∃ d t, d.isDigit = true ∧ s = '_' :: '_' :: (stem ++ d :: t) := by
  unfold maskAt
  rw [List.any_eq_true]
  constructor
  · rintro ⟨stem, hs, h⟩
    cases ha : after? ('_' :: '_' :: stem) s with
    | none => rw [ha] at h; cases h
    | some r =>
      rw [ha] at h
      cases r with
      | nil => cases h
      | cons d t => exact ⟨stem, hs, d, t, h, after?_eq_some.1 ha⟩
  · rintro ⟨stem, hs, d, t, hd, rfl⟩
    refine ⟨stem, hs, ?_⟩
    rw [show '_' :: '_' :: (stem ++ d :: t) = ('_' :: '_' :: stem) ++ d :: t from rfl, after?_append]
    exact hd

theorem maskAt_of_startsWith {w s : Text} (hw : IsMask w) (h : startsWith w s = true) :
    maskAt s = true := by
  obtain ⟨stem, hs, i, rfl⟩ := hw
  obtain ⟨d, ds, hd, hdigit⟩ := natText_eq i
  obtain ⟨t, rfl⟩ := startsWith_iff.1 h
  refine maskAt_iff.2 ⟨stem, hs, d, ds ++ ['_', '_'] ++ t, hdigit, ?_⟩
  simp [maskOf, hd]

theorem IsMask.quiet {u rest w : Text} (hw : IsMask w) (h : Quiet maskAt u rest) :
    Quiet (startsWith w) u rest :=
  h.mono fun _ => maskAt_of_startsWith hw

/-- What may follow a text of a chain. -/
inductive Follows : Text → Prop where
  | nil : Follows []
  | plain (c : Char) (rest : Text) (h : c = ' ' ∨ c = '{' ∨ c = '}') : Follows (c :: rest)
  | mask (x : Char) (rest : Text) (h : x = 'V' ∨ x = 'T') : Follows ('_' :: '_' :: x :: rest)

theorem IsMask.follows {w : Text} (h : IsMask w) (rest : Text) : Follows (w ++ rest) := by
  obtain ⟨stem, hs, i, rfl⟩ := h
  obtain ⟨x, s, rfl, hx, _⟩ := stem_eq hs
  exact .mask x _ hx

theorem ne_of_isDigit {d : Char} (h : d.isDigit = true) :
    d ≠ '_' ∧ d ≠ 'V' ∧ d ≠ 'T' ∧ d ≠ ' ' ∧ d ≠ '{' ∧ d ≠ '}' := by
  refine ⟨?_, ?_, ?_, ?_, ?_, ?_⟩ <;> (rintro rfl; revert h; decide)

/-- No mark of a chain stands in a stem with a digit after it. -/
theorem not_mem_stem {stem : Text} (hs : stem ∈ stems) {d : Char} (hd : d.isDigit = true) {y : Char}
    (hy : y = ' ' ∨ y = '{' ∨ y = '}') : y ∉ '_' :: (stem ++ [d]) := by
  obtain ⟨_, _, _, hd1, hd2, hd3⟩ := ne_of_isDigit hd
  obtain ⟨h1, h2, h3⟩ := stem_plain hs
  intro hm
  rcases List.mem_cons.1 hm with rfl | hm
  · revert hy
    decide
  · rcases List.mem_append.1 hm with hm | hm
    · rcases hy with rfl | rfl | rfl
      · exact h1 hm
      · exact h2 hm
      · exact h3 hm
    · rw [← List.mem_singleton.1 hm] at hd1 hd2 hd3
      rcases hy with hy | hy | hy
      · exact hd1 hy
      · exact hd2 hy
      · exact hd3 hy

/-- A capital of a stem does not stand after its first character. -/
theorem capital_at_head {stem : Text} (hs : stem ∈ stems) {d : Char} (hd : d.isDigit = true)
    {u a : Text} {y x : Char} (h : '_' :: (stem ++ [d]) = u ++ y :: '_' :: x :: a)
    (hx : x = 'V' ∨ x = 'T') : y ≠ '_' := by
  obtain ⟨_, hdV, hdT, _⟩ := ne_of_isDigit hd
  obtain ⟨v, s, rfl, hv, hV, hT⟩ := stem_eq hs
  rintro rfl
  match u, h with
  | [], h =>
    have : v = '_' := (List.cons.inj (List.cons.inj h).2).1
    subst this
    revert hv
    decide
  | [e], h =>
    have : v = '_' := (List.cons.inj (List.cons.inj h).2).1
    subst this
    revert hv
    decide
  | e :: e' :: u, h =>
    have hs' : s ++ [d] = u ++ '_' :: '_' :: x :: a := (List.cons.inj (List.cons.inj h).2).2
    have hm : x ∈ s ++ [d] := by
      rw [hs']
      simp
    rcases List.mem_append.1 hm with hm | hm
    · rcases hx with rfl | rfl
      · exact hV hm
      · exact hT hm
    · rw [← List.mem_singleton.1 hm] at hdV hdT
      exact hx.elim hdV hdT

/-- What may follow a text is not the end of a mask. -/
theorem Follows.not_end {stem : Text} (hs : stem ∈ stems) {d : Char} (hd : d.isDigit = true)
    {u a rest : Text} (h : '_' :: (stem ++ [d]) = u ++ a) (ha : a ≠ []) (hr : Follows (a ++ rest)) :
    False := by
  have hlast : ∀ b, a ≠ b ++ ['_'] := by
    intro b e
    rw [e, ← List.cons_append, ← List.append_assoc] at h
    have := (List.append_inj' h rfl).2
    exact (ne_of_isDigit hd).1 (List.cons.inj this).1
  obtain ⟨y, a, rfl⟩ := List.exists_cons_of_ne_nil ha
  generalize hR : y :: a ++ rest = R at hr
  cases hr with
  | nil => cases hR
  | plain z r hz =>
    refine not_mem_stem hs hd ((List.cons.inj hR).1 ▸ hz) ?_
    rw [h]
    simp
  | mask x r hx =>
    -- What follows starts a mask, whose capital would stand in the tail of the stem.
    obtain ⟨hy, htail⟩ := List.cons.inj hR
    match a, htail, h, hlast with
    | [], _, _, hlast => exact hlast [] (by rw [hy]; rfl)
    | [z], htail, _, hlast => exact hlast [y] (by rw [(List.cons.inj htail).1]; rfl)
    | z :: x' :: a, htail, h, _ =>
      obtain ⟨hz, hrest⟩ := List.cons.inj htail
      subst hz
      exact capital_at_head hs hd h ((List.cons.inj hrest).1 ▸ hx) hy

/-- No mask starts in a text that spells no stem, whatever may follow it. -/
theorem maskAt_text {c : Char} {u rest : Text} (hu : Unmasked (c :: u)) (hr : Follows rest) :
    maskAt (c :: (u ++ rest)) = false := by
  cases h : maskAt (c :: (u ++ rest)) with
  | false => rfl
  | true =>
    obtain ⟨stem, hs, d, t, hd, he⟩ := maskAt_iff.1 h
    have hspells : contains stem (c :: u) = false := by
      rcases List.mem_cons.1 hs with e | e
      · rw [e]
        exact hu.1
      · rw [List.mem_singleton.1 e]
        exact hu.2
    have hout : ∀ a, u ≠ '_' :: (stem ++ [d]) ++ a := by
      intro a e
      have := contains_middle [c, '_'] stem ([d] ++ a)
      rw [show [c, '_'] ++ (stem ++ ([d] ++ a)) = c :: u by rw [e]; simp, hspells] at this
      cases this
    have he' : u ++ rest = '_' :: (stem ++ [d]) ++ t := by simpa using (List.cons.inj he).2
    rcases List.append_eq_append_iff.1 he' with ⟨a, ha, hb⟩ | ⟨a, ha, _⟩
    · by_cases hne : a = []
      · rw [hne, List.append_nil] at ha
        exact absurd (by rw [List.append_nil]; exact ha.symm) (hout [])
      · exact (Follows.not_end hs hd ha hne (hb ▸ hr)).elim
    · exact absurd ha (hout a)

theorem Unmasked.tail {c : Char} {s : Text} (h : Unmasked (c :: s)) : Unmasked s := by
  unfold Unmasked at h
  rw [contains_cons, contains_cons, Bool.or_eq_false_iff, Bool.or_eq_false_iff] at h
  exact ⟨h.1.2, h.2.2⟩

/-- A character that is no capital of a stem spells none. -/
theorem Unmasked.cons {c : Char} {s : Text} (h : Unmasked s) (hV : c ≠ 'V') (hT : c ≠ 'T') :
    Unmasked (c :: s) := by
  have hstart : ∀ stem ∈ stems, startsWith stem (c :: s) = false := by
    intro stem hs
    obtain ⟨x, y, rfl, hx, _⟩ := stem_eq hs
    refine startsWith_of_ne ?_
    rcases hx with rfl | rfl
    · exact Ne.symm hV
    · exact Ne.symm hT
  unfold Unmasked at h ⊢
  rw [contains_cons, contains_cons, h.1, h.2, hstart referenceWord List.mem_cons_self,
    hstart queryWord (List.mem_cons_of_mem _ List.mem_cons_self)]
  exact ⟨rfl, rfl⟩

theorem unmasked_nil : Unmasked [] := by decide

theorem Unmasked.inside {name : Text} (h : Unmasked name) :
    Unmasked (Token.inside (.named name)) := by
  refine Unmasked.cons ?_ (by decide) (by decide)
  have hnil : ∀ w : Text, ' ' ∉ w → w ≠ [] → contains w name = false →
      contains w (name ++ [' ']) = false := by
    intro w hc hne hw
    cases hb : contains w (name ++ [' ']) with
    | false => rfl
    | true =>
      rcases contains_split hne hc hb with hl | hr
      · rw [← hl, hw]
      · obtain ⟨d, w, rfl⟩ := List.exists_cons_of_ne_nil hne
        simp [contains, cut?, after?] at hr
  exact ⟨hnil _ (by decide) (by decide) h.1, hnil _ (by decide) (by decide) h.2⟩

theorem quiet_text {s rest : Text} (hs : Unmasked s) (hr : Follows rest) :
    Quiet maskAt s rest := by
  induction s with
  | nil => exact trivial
  | cons c s ih => exact ⟨maskAt_text hs hr, ih hs.tail⟩

theorem maskAt_eq_false {s : Text} (h : ∀ x r, s = '_' :: '_' :: x :: r → x ≠ 'V' ∧ x ≠ 'T') :
    maskAt s = false := by
  cases hm : maskAt s with
  | false => rfl
  | true =>
    obtain ⟨stem, hs, d, t, _, rfl⟩ := maskAt_iff.1 hm
    obtain ⟨x, s, rfl, hx, _⟩ := stem_eq hs
    obtain ⟨hV, hT⟩ := h x _ rfl
    exact absurd hx (not_or.2 ⟨hV, hT⟩)

/-- No mask starts inside another one. -/
theorem quiet_mask {w : Text} (hw : IsMask w) {s rest : Text} (hs : Unmasked s)
    (hr : Follows rest) : Quiet maskAt w.tail (s ++ rest) := by
  obtain ⟨stem, hstem, i, rfl⟩ := hw
  obtain ⟨x, y, rfl, hx, hV, hT⟩ := stem_eq hstem
  have hends : Quiet maskAt ['_', '_'] (s ++ rest) := by
    have hu : Unmasked ('_' :: '_' :: s) :=
      (hs.cons (by decide) (by decide)).cons (by decide) (by decide)
    obtain ⟨h1, h2, _⟩ := quiet_text hu hr
    exact ⟨h1, h2, trivial⟩
  have hdigits : Quiet maskAt (natText i) (['_', '_'] ++ (s ++ rest)) :=
    quiet_of_forall fun c hc t => maskAt_eq_false fun z r e =>
      absurd (List.cons.inj e).1 (ne_of_isDigit (isDigit_natText hc)).1
  have hstem : ∀ v : Text, 'V' ∉ v → 'T' ∉ v →
      Quiet maskAt v (natText i ++ (['_', '_'] ++ (s ++ rest))) := by
    intro v hV hT
    induction v with
    | nil => exact trivial
    | cons c v ih =>
      refine ⟨maskAt_eq_false fun z r e => ?_, ih (fun h => hV (List.mem_cons_of_mem c h))
        fun h => hT (List.mem_cons_of_mem c h)⟩
      have he : v ++ (natText i ++ (['_', '_'] ++ (s ++ rest))) = '_' :: z :: r :=
        (List.cons.inj e).2
      obtain ⟨d, ds, hd, hdigit⟩ := natText_eq i
      have hd' := ne_of_isDigit hdigit
      match v, he, hV, hT with
      | [], he, _, _ =>
        rw [List.nil_append, hd] at he
        exact absurd (List.cons.inj he).1 hd'.1
      | [a], he, _, _ =>
        rw [hd] at he
        rw [← (List.cons.inj (List.cons.inj he).2).1]
        exact ⟨hd'.2.1, hd'.2.2.1⟩
      | a :: b :: v, he, hV, hT =>
        rw [← (List.cons.inj (List.cons.inj he).2).1]
        exact ⟨fun e => hV (by rw [← e]; simp), fun e => hT (by rw [← e]; simp)⟩
  have hhead : Quiet maskAt ['_', x] (y ++ (natText i ++ (['_', '_'] ++ (s ++ rest)))) := by
    refine ⟨maskAt_eq_false fun z r e => ?_, maskAt_eq_false fun z r e => ?_, trivial⟩
    · have : x = '_' := (List.cons.inj (List.cons.inj e).2).1
      subst this
      exact absurd hx (by decide)
    · have : x = '_' := (List.cons.inj e).1
      subst this
      exact absurd hx (by decide)
  show Quiet maskAt (['_', x] ++ (y ++ (natText i ++ ['_', '_']))) (s ++ rest)
  rw [quiet_append, quiet_append, quiet_append]
  refine ⟨?_, ?_, hdigits, hends⟩
  · simpa using hhead
  · simpa using hstem y hV hT

/-- Of two masks, one stands at the head of the other only if they are equal. -/
theorem startsWith_mask {w w' : Text} (hw : IsMask w) (hw' : IsMask w') (hne : w ≠ w')
    (rest : Text) :
    startsWith w (w' ++ rest) = false := by
  cases hs : startsWith w (w' ++ rest) with
  | false => rfl
  | true =>
    obtain ⟨t, ht⟩ := startsWith_iff.1 hs
    obtain ⟨stem, hstem, i, rfl⟩ := hw
    obtain ⟨stem', hstem', j, rfl⟩ := hw'
    refine absurd ?_ hne
    simp only [maskOf, List.cons_append, List.append_assoc, List.cons.injEq, true_and] at ht
    have hstems : stem = stem' := by
      simp only [stems, List.mem_cons, List.not_mem_nil, or_false] at hstem hstem'
      rcases hstem with rfl | rfl <;> rcases hstem' with rfl | rfl
      · rfl
      · exact absurd (List.cons.inj ht).1 (by decide)
      · exact absurd (List.cons.inj ht).1 (by decide)
      · rfl
    subst hstems
    have hmarks := undigited_cons (c := '_') (by decide)
    rw [(natText_append (hmarks _) (hmarks _) (List.append_cancel_left ht)).1]

/-! ## Rounds of masks -/

/-- A token as it is written, or hidden. -/
def Marked (f : Token → Text) (t : Token) : Prop := f t = t.text ∨ IsMask (f t)

variable {f : Token → Text} {t : Token} {w new : Text}

theorem Marked.follows (h : Marked f t) (rest : Text) : Follows (f t ++ rest) := by
  rcases h with h | h
  · rw [h]
    exact .plain '{' _ (Or.inr (Or.inl rfl))
  · exact h.follows rest

theorem quiet_token (ht : Unmasked t.inside) (rest : Text) : Quiet maskAt t.text rest := by
  have hbrace : ∀ c r, c = '{' ∨ c = '}' → maskAt (c :: r) = false := by
    intro c r hc
    refine maskAt_eq_false fun x r e => ?_
    rw [(List.cons.inj e).1] at hc
    exact absurd hc (by decide)
  refine ⟨hbrace _ _ (Or.inl rfl), hbrace _ _ (Or.inl rfl), ?_⟩
  rw [quiet_append]
  refine ⟨quiet_text ht (.plain '}' _ (Or.inr (Or.inr rfl))), ?_⟩
  exact ⟨hbrace _ _ (Or.inr rfl), hbrace _ _ (Or.inr rfl), trivial⟩

theorem replaceAll_marked {s rest : Text} (hw : IsMask w) (hf : Marked f t)
    (ht : Unmasked t.inside) (hs : Unmasked s) (hr : Follows rest) :
    replaceAll w new (f t ++ (s ++ rest)) =
      (if f t = w then new else f t) ++ replaceAll w new (s ++ rest) := by
  by_cases e : f t = w
  · rw [if_pos e, e, replaceAll_append_self _ hw.solid.nonempty]
  · rw [if_neg e]
    refine replaceAll_quiet hw.solid.nonempty ?_
    rcases hf with hf | hf
    · rw [hf]
      exact hw.quiet (quiet_token ht _)
    · have htail := hw.quiet (quiet_mask hf hs hr)
      have hhead := startsWith_mask hw hf (Ne.symm e) (s ++ rest)
      obtain ⟨c, m, hm⟩ := List.exists_cons_of_ne_nil hf.solid.nonempty
      rw [hm] at hhead htail ⊢
      exact ⟨hhead, htail⟩

theorem replaceAll_marked_token (hw : IsMask w) (hf : Marked f t) (ht : Unmasked t.inside) :
    replaceAll w new (f t) = if f t = w then new else f t := by
  have : replaceAll w new (f t ++ ([] ++ [])) =
      (if f t = w then new else f t) ++ replaceAll w new ([] ++ []) :=
    replaceAll_marked hw hf ht unmasked_nil Follows.nil
  rwa [List.append_nil, List.append_nil, replaceAll_nil hw.solid.nonempty, List.append_nil] at this

theorem replaceAll_marked_write {ps : List (Token × Text)} {s : Text} (hw : IsMask w)
    (hf : ∀ p ∈ ps, Marked f p.1) (ht : ∀ p ∈ ps, Unmasked p.1.inside) (hs : Unmasked s)
    (hps : ∀ p ∈ ps, Unmasked p.2) :
    replaceAll w new (s ++ ((ps.flatMap fun p => f p.1 ++ p.2) ++ spacedClose)) =
      s ++ ((ps.flatMap fun p => (if f p.1 = w then new else f p.1) ++ p.2) ++ spacedClose) := by
  induction ps generalizing s with
  | nil =>
    have hend : Quiet (startsWith w) (s ++ spacedClose) [] := by
      rw [quiet_append]
      refine ⟨hw.quiet (quiet_text hs (.plain ' ' _ (Or.inl rfl))), hw.quiet (quiet_text ?_ .nil)⟩
      exact ⟨by decide, by decide⟩
    have : replaceAll w new (s ++ spacedClose ++ []) = s ++ spacedClose ++ replaceAll w new [] :=
      replaceAll_quiet hw.solid.nonempty hend
    rwa [List.append_nil, replaceAll_nil hw.solid.nonempty, List.append_nil] at this
  | cons p ps ih =>
    have hp := hf p List.mem_cons_self
    have hrest : Follows ((ps.flatMap fun p => f p.1 ++ p.2) ++ spacedClose) := by
      cases ps with
      | nil => exact .plain ' ' _ (Or.inl rfl)
      | cons q ps =>
        rw [List.flatMap_cons, List.append_assoc, List.append_assoc]
        exact (hf q (List.mem_cons_of_mem p List.mem_cons_self)).follows _
    simp only [List.flatMap_cons, List.append_assoc]
    rw [replaceAll_quiet hw.solid.nonempty (hw.quiet (quiet_text hs (hp.follows _))),
      replaceAll_marked hw hp (ht p List.mem_cons_self) (hps p List.mem_cons_self) hrest,
      ih (fun q hq => hf q (List.mem_cons_of_mem p hq))
        (fun q hq => ht q (List.mem_cons_of_mem p hq)) (hps p List.mem_cons_self)
        fun q hq => hps q (List.mem_cons_of_mem p hq)]

theorem replaceAll_marked_expression {c : Chain} (hc : c.Proper) (hw : IsMask w)
    (hf : ∀ t ∈ c.tokens, Marked f t) :
    replaceAll w new (c.expression f) = c.expression fun t => if f t = w then new else f t := by
  have hp : ∀ p ∈ c.rest, p.1 ∈ c.tokens ∧ p.2 ∈ c.texts := fun p hp =>
    ⟨List.mem_map_of_mem hp, List.mem_cons_of_mem _ (List.mem_map_of_mem hp)⟩
  have hopen : Unmasked (spacedOpen ++ c.first) :=
    (((hc.texts_unmasked _ List.mem_cons_self).cons (by decide) (by decide)).cons (by decide)
      (by decide)).cons (by decide) (by decide)
  have hwrite : replaceAll w new (spacedOpen ++ c.first ++
      ((c.rest.flatMap fun p => f p.1 ++ p.2) ++ spacedClose)) = _ :=
    replaceAll_marked_write hw (fun p h => hf _ (hp p h).1)
      (fun p h => hc.tokens_unmasked _ (hp p h).1) hopen fun p h => hc.texts_unmasked _ (hp p h).2
  unfold Chain.expression Chain.write
  simpa only [List.append_assoc] using hwrite

/-- A text written from tokens, on which a round of a mask works token by token. -/
structure Maskable (tokens : List Token) (u : (Token → Text) → Text) : Prop where
  congr : ∀ f g : Token → Text, (∀ t ∈ tokens, f t = g t) → u f = u g
  round : ∀ (f : Token → Text) (w new : Text), IsMask w → (∀ t ∈ tokens, Marked f t) →
    replaceAll w new (u f) = u fun t => if f t = w then new else f t

theorem Chain.Proper.maskable {c : Chain} (hc : c.Proper) : Maskable c.tokens c.expression where
  congr _ _ h := Chain.expression_congr h
  round _ _ _ hw hf := replaceAll_marked_expression hc hw hf

theorem maskable_token (ht : Unmasked t.inside) : Maskable [t] fun f => f t where
  congr _ _ h := h t List.mem_cons_self
  round _ _ _ hw hf := replaceAll_marked_token hw (hf t List.mem_cons_self) ht

/-- **Revealing masks.** Rounds of masks give each mask its token. -/
theorem fill_masks {tokens : List Token} {u : (Token → Text) → Text} (hu : Maskable tokens u)
    (ps : Pairs Text Text) (hk : ∀ p ∈ ps, IsMask p.1) (f : Token → Text)
    (hf : ∀ t ∈ tokens, Marked f t) (hv : ∀ p ∈ ps, ∀ t ∈ tokens, f t = p.1 → p.2 = t.text) :
    fill ps (u f) = u fun t => look ps (f t) := by
  have hmask : ∀ t : Token, ∀ w, IsMask w → t.text ≠ w := by
    intro t w hw e
    exact (mem_mask hw (c := '{') (by rw [← e]; exact List.mem_cons_self)).2.1 rfl
  induction ps generalizing f with
  | nil => rfl
  | cons p ps ih =>
    let f' := fun t => if f t = p.1 then p.2 else f t
    have hp := hk p List.mem_cons_self
    have hps := fun q hq => hk q (List.mem_cons_of_mem p hq)
    have hshown : ∀ t ∈ tokens, f t = p.1 → f' t = t.text := fun t ht e => by
      simpa only [f', if_pos e] using hv p List.mem_cons_self t ht e
    have hf' : ∀ t ∈ tokens, Marked f' t := by
      intro t ht
      by_cases e : f t = p.1
      · exact Or.inl (hshown t ht e)
      · simpa only [Marked, f', if_neg e] using hf t ht
    have hv' : ∀ q ∈ ps, ∀ t ∈ tokens, f' t = q.1 → q.2 = t.text := by
      intro q hq t ht h
      by_cases e : f t = p.1
      · rw [hshown t ht e] at h
        exact absurd h (hmask t _ (hps q hq))
      · simp only [f', if_neg e] at h
        exact hv q (List.mem_cons_of_mem p hq) t ht h
    rw [fill_cons, hu.round f p.1 p.2 hp hf, ih hps f' hf' hv']
    refine hu.congr _ _ fun t ht => look_cons p ps (f t) fun e => ?_
    rw [hv p List.mem_cons_self t ht e]
    refine Pairs.get?_eq_none.2 fun hm => ?_
    obtain ⟨q, hq, hqt⟩ := List.mem_map.1 hm
    exact hmask t _ (hps q hq) hqt.symm

end Crosswalk.Template
