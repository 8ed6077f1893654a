import Crosswalk.Proofs.Filter.Tags
import Crosswalk.Proofs.Number.Numeral
import Crosswalk.Proofs.Template.Ends
import Crosswalk.Proofs.Template.Quotes
import Crosswalk.Proofs.Text.Mark
import Mathlib.Data.List.Forall2

/-!
# Filters that overlook quotes

A chain runs on a datum whose quotes are hidden behind words. Where each of its steps overlooks
them, it gives the same as on the datum itself, with quotes hidden again:

    OverlooksAll scope w steps → v.Veils w → Agree (runSteps scope v steps) (runSteps scope w steps)
                                                                            (OverlooksAll.agree)

Changes of case to capitals overlook quotes, and so does all that looks at other characters only:
cuts at them, ends made of them, tags. What counts characters or changes letters to small ones does
not, unless the datum has no quotes or is a list (`Overlooks`).
-/

namespace Crosswalk.Filter

open Text Template

/-! ## Veiled texts, cut and changed -/

/-- A character of no mask and no token. -/
def Clear (masks : Masks) (c : Char) : Prop := ∀ p ∈ masks, c ∉ p.1 ∧ c ∉ p.2

instance (masks : Masks) (c : Char) : Decidable (Clear masks c) :=
  inferInstanceAs (Decidable (∀ p ∈ masks, _))

variable {masks : Masks} {m s : Text} {mark : Text}

theorem not_startsWith_of_clear {w u : Text} (hw : w ≠ []) (hmark : mark ≠ [])
    (hu : ∀ c ∈ mark, c ∉ w) : startsWith mark (w ++ u) = false := by
  obtain ⟨c, w, rfl⟩ := List.exists_cons_of_ne_nil hw
  obtain ⟨y, mark, rfl⟩ := List.exists_cons_of_ne_nil hmark
  refine startsWith_of_ne ?_
  rintro rfl
  exact hu y List.mem_cons_self List.mem_cons_self

section

variable (hne : ∀ p ∈ masks, p.1 ≠ [] ∧ p.2 ≠ []) (hclear : ∀ c ∈ mark, Clear masks c)
include hne hclear

theorem veiled_after? (h : Veiled masks m s) :
    Option.Rel (Veiled masks) (after? mark m) (after? mark s) := by
  induction mark generalizing m s with
  | nil => exact .some h
  | cons y mark ih =>
    cases h with
    | nil => exact .none
    | @plain c m s h =>
      rw [after?, after?]
      split
      · exact ih (fun d hd => hclear d (List.mem_cons_of_mem y hd)) h
      · exact .none
    | @mask p m s hp h =>
      have hm := not_startsWith_of_clear (u := m) (hne p hp).2 (List.cons_ne_nil y mark)
        fun c hc => (hclear c hc p hp).2
      have hs := not_startsWith_of_clear (u := s) (hne p hp).1 (List.cons_ne_nil y mark)
        fun c hc => (hclear c hc p hp).1
      rw [after?_eq_none.2 hm, after?_eq_none.2 hs]
      exact .none

/-- The parts around a mark. -/
theorem veiled_cut? (hmark : mark ≠ []) (h : Veiled masks m s) :
    Option.Rel (fun p q => Veiled masks p.1 q.1 ∧ Veiled masks p.2 q.2) (cut? mark m)
      (cut? mark s) := by
  induction h with
  | nil =>
    obtain ⟨y, mark, rfl⟩ := List.exists_cons_of_ne_nil hmark
    exact .none
  | @plain c m s h ih =>
    have hafter := veiled_after? hne hclear (.plain c h)
    rw [cut?, cut?]
    cases hm : after? mark (c :: m) <;> cases hs : after? mark (c :: s) <;>
      rw [hm, hs] at hafter <;> cases hafter
    · cases hcm : cut? mark m <;> cases hcs : cut? mark s <;> rw [hcm, hcs] at ih <;> cases ih
      · exact .none
      · next hparts => exact .some ⟨.plain c hparts.1, hparts.2⟩
    · next hrest => exact .some ⟨.nil, hrest⟩
  | @mask p m s hp h ih =>
    have hquiet : ∀ w : Text, (∀ c ∈ mark, c ∉ w) → ∀ rest, Quiet (startsWith mark) w rest := by
      intro w hw rest
      refine quiet_of_forall fun c hc t => ?_
      exact not_startsWith_of_clear (w := [c]) (List.cons_ne_nil c _) hmark
        fun d hd he => hw d hd (List.mem_singleton.1 he ▸ hc)
    rw [cut?_quiet (hquiet p.2 (fun c hc => (hclear c hc p hp).2) m),
      cut?_quiet (hquiet p.1 (fun c hc => (hclear c hc p hp).1) s)]
    cases hcm : cut? mark m <;> cases hcs : cut? mark s <;> rw [hcm, hcs] at ih <;> cases ih
    · exact .none
    · next hparts => exact .some ⟨.mask hp hparts.1, hparts.2⟩

theorem veiled_split (hmark : mark ≠ []) (n : Nat) (h : Veiled masks m s) :
    List.Forall₂ (Veiled masks) (split n mark m) (split n mark s) := by
  induction n generalizing m s with
  | zero => exact .cons h .nil
  | succ n ih =>
    have hcut := veiled_cut? hne hclear hmark h
    rw [split, split]
    cases hm : cut? mark m <;> cases hs : cut? mark s <;> rw [hm, hs] at hcut <;> cases hcut
    · exact .cons h .nil
    · next hparts => exact .cons hparts.1 (ih hparts.2)

theorem veiled_splitAll (hmark : mark ≠ []) (h : Veiled masks m s) :
    List.Forall₂ (Veiled masks) (splitAll mark m) (splitAll mark s) := by
  unfold splitAll
  rw [split_eq_split hmark m.length (m.length + s.length) m (by omega) (by omega),
    split_eq_split hmark s.length (m.length + s.length) s (by omega) (by omega)]
  exact veiled_split hne hclear hmark _ h

omit hne hclear in
theorem veiled_joinWith (new : Text) {ms ss : List Text} (h : List.Forall₂ (Veiled masks) ms ss) :
    Veiled masks (joinWith new ms) (joinWith new ss) := by
  induction h with
  | nil => exact .nil
  | @cons m s ms ss hms hrest ih =>
    cases hrest with
    | nil =>
      rw [joinWith_singleton, joinWith_singleton]
      exact hms
    | cons h' hrest' =>
      rw [joinWith_cons _ _ (List.cons_ne_nil _ _), joinWith_cons _ _ (List.cons_ne_nil _ _)]
      exact (hms.append (veiled_self masks new)).append ih

theorem veiled_replaceAll (hmark : mark ≠ []) (new : Text) (h : Veiled masks m s) :
    Veiled masks (replaceAll mark new m) (replaceAll mark new s) := by
  unfold replaceAll
  rw [if_neg hmark, if_neg hmark]
  exact veiled_joinWith new (veiled_splitAll hne hclear hmark h)

end

section

variable (hne : ∀ p ∈ masks, p.1 ≠ [] ∧ p.2 ≠ []) {p : Char → Bool}
  (hp : ∀ c, p c = true → Clear masks c)
include hne hp

theorem veiled_dropWhile (h : Veiled masks m s) :
    Veiled masks (m.dropWhile p) (s.dropWhile p) := by
  induction h with
  | nil => exact .nil
  | @plain c m s h ih =>
    cases hc : p c with
    | true => rwa [List.dropWhile_cons_of_pos hc, List.dropWhile_cons_of_pos hc]
    | false =>
      rw [List.dropWhile_cons_of_neg (by simp [hc]), List.dropWhile_cons_of_neg (by simp [hc])]
      exact .plain c h
  | @mask q m s hq h _ =>
    have hstop : ∀ w : Text, w ≠ [] → (∀ c, Clear masks c → c ∉ w) → ∀ rest : Text,
        (w ++ rest).dropWhile p = w ++ rest := by
      intro w hw hclear rest
      obtain ⟨c, w, rfl⟩ := List.exists_cons_of_ne_nil hw
      exact List.dropWhile_cons_of_neg fun hc => hclear c (hp c hc) List.mem_cons_self
    rw [hstop q.2 (hne q hq).2 (fun c hc => (hc q hq).2),
      hstop q.1 (hne q hq).1 (fun c hc => (hc q hq).1)]
    exact .mask hq h

end

theorem veiled_reverse (h : Veiled masks m s) :
    Veiled (masks.map fun p => (p.1.reverse, p.2.reverse)) m.reverse s.reverse := by
  induction h with
  | nil => exact .nil
  | plain c _ ih =>
    rw [List.reverse_cons, List.reverse_cons]
    exact ih.append (veiled_self _ [c])
  | @mask p m s hp _ ih =>
    rw [List.reverse_append, List.reverse_append]
    exact ih.append (veiled_token (p := (p.1.reverse, p.2.reverse)) (List.mem_map.2 ⟨p, hp, rfl⟩))

section

variable (hne : ∀ p ∈ masks, p.1 ≠ [] ∧ p.2 ≠ []) {p : Char → Bool}
  (hp : ∀ c, p c = true → Clear masks c)
include hne hp

theorem veiled_trimEndOf (h : Veiled masks m s) : Veiled masks (trimEndOf p m) (trimEndOf p s) := by
  have hback : ∀ q ∈ masks.map fun p => (p.1.reverse, p.2.reverse), q.1 ≠ [] ∧ q.2 ≠ [] := by
    intro q hq
    obtain ⟨r, hr, rfl⟩ := List.mem_map.1 hq
    simpa using hne r hr
  have hclear : ∀ c, p c = true → Clear (masks.map fun p => (p.1.reverse, p.2.reverse)) c := by
    intro c hc q hq
    obtain ⟨r, hr, rfl⟩ := List.mem_map.1 hq
    simpa using hp c hc r hr
  have hdrop := veiled_reverse (veiled_dropWhile hback hclear (veiled_reverse h))
  have htwice : ((masks.map fun p => (p.1.reverse, p.2.reverse)).map fun p =>
      (p.1.reverse, p.2.reverse)) = masks := by
    simp [List.map_map, Function.comp_def]
  rwa [htwice] at hdrop

theorem veiled_trimOf (h : Veiled masks m s) : Veiled masks (trimOf p m) (trimOf p s) :=
  veiled_trimEndOf hne hp (veiled_dropWhile hne hp h)

end

/-- A change of each character that leaves the words, and the quotes that there are. -/
theorem veiled_flatMap {f : Char → Text} (hwords : ∀ p ∈ masks, p.2.flatMap f = p.2)
    (htokens : ∀ p ∈ masks, p.1 <:+: s → p.1.flatMap f = p.1) (h : Veiled masks m s) :
    Veiled masks (m.flatMap f) (s.flatMap f) := by
  induction h with
  | nil => exact .nil
  | @plain c m s _ ih =>
    rw [List.flatMap_cons, List.flatMap_cons]
    exact (veiled_self masks (f c)).append
      (ih fun p hp hpart => htokens p hp (hpart.trans (List.suffix_cons c s).isInfix))
  | @mask p m s hp _ ih =>
    rw [List.flatMap_append, List.flatMap_append, hwords p hp,
      htokens p hp (List.prefix_append p.1 s).isInfix]
    exact .mask hp (ih fun q hq hpart => htokens q hq
      (hpart.trans (List.suffix_append p.1 s).isInfix))

/-! ## Texts with hidden quotes -/

theorem quoteMasks_ne : ∀ p ∈ quoteMasks, p.1 ≠ [] ∧ p.2 ≠ [] := by decide

theorem veiled_upper (h : Veiled quoteMasks m s) : Veiled quoteMasks (upper m) (upper s) := by
  have htokens : ∀ p ∈ quoteMasks, p.1.flatMap upperOf = p.1 := by decide
  exact veiled_flatMap (by decide) (fun p hp _ => htokens p hp) h

theorem veiled_capitalize (h : Veiled quoteMasks m s) :
    Veiled quoteMasks (capitalize m) (capitalize s) := by
  have hkept : ∀ p ∈ quoteMasks, ∀ t : Text,
      capitalize (p.2 ++ t) = p.2 ++ t ∧ capitalize (p.1 ++ t) = p.1 ++ t := by
    refine List.forall_mem_cons.2 ⟨fun t => ⟨rfl, rfl⟩, List.forall_mem_singleton.2 fun t => ?_⟩
    exact ⟨rfl, rfl⟩
  cases h with
  | nil => exact .nil
  | plain c h => exact (veiled_self quoteMasks (upper [c])).append h
  | @mask p m s hp h =>
    rw [(hkept p hp m).1, (hkept p hp s).2]
    exact .mask hp h

theorem veiled_titleFrom (blank : Bool) (h : Veiled quoteMasks m s) :
    Veiled quoteMasks (titleFrom blank m) (titleFrom blank s) := by
  have hkept : ∀ p ∈ quoteMasks, ∀ (blank : Bool) (t : Text),
      titleFrom blank (p.2 ++ t) = p.2 ++ titleFrom false t ∧
        titleFrom blank (p.1 ++ t) = p.1 ++ titleFrom false t := by
    refine List.forall_mem_cons.2 ⟨fun blank t => ?_, List.forall_mem_singleton.2 fun blank t => ?_⟩
    · cases blank <;> exact ⟨rfl, rfl⟩
    · cases blank <;> exact ⟨rfl, rfl⟩
  induction h generalizing blank with
  | nil => exact .nil
  | plain c _ ih =>
    rw [titleFrom, titleFrom]
    split
    · exact .plain c (ih true)
    · exact (veiled_self quoteMasks _).append (ih false)
  | @mask p m s hp _ ih =>
    rw [(hkept p hp blank m).1, (hkept p hp blank s).2]
    exact .mask hp (ih false)

/-! ## Tags -/

/-- Neither text starts with a tag, or both do, and what follows it is veiled. -/
def SameTag (m s : Text) : Prop :=
  (tagLength? m = none ∧ tagLength? s = none) ∨
    ∃ u m' v s', m = u ++ m' ∧ s = v ++ s' ∧ Veiled quoteMasks m' s' ∧ u ≠ [] ∧ v ≠ [] ∧
      tagLength? m = some u.length ∧ tagLength? s = some v.length

theorem sameTag_no_comment (h : Veiled quoteMasks m s)
    (hm : (after? commentOpen ('<' :: m)).bind (cut? commentClose) = none)
    (hs : (after? commentOpen ('<' :: s)).bind (cut? commentClose) = none) :
    SameTag ('<' :: m) ('<' :: s) := by
  have hcut : Option.Rel _ (cut? ['>'] m) (cut? ['>'] s) :=
    veiled_cut? quoteMasks_ne (forall_mem_of_all (by decide)) (by decide) h
  unfold SameTag
  rw [tagLength?_no_comment hm, tagLength?_no_comment hs]
  cases hcm : cut? ['>'] m <;> cases hcs : cut? ['>'] s <;> rw [hcm, hcs] at hcut <;> cases hcut
  · exact .inl ⟨rfl, rfl⟩
  · next p q hparts =>
    have hsplit : ∀ {t a b : Text}, cut? ['>'] t = some (a, b) →
        '<' :: t = '<' :: (a ++ ['>']) ++ b :=
      fun ht => by rw [cut?_eq_some ht]; rfl
    exact .inr ⟨'<' :: (p.1 ++ ['>']), p.2, '<' :: (q.1 ++ ['>']), q.2, hsplit hcm, hsplit hcs,
      hparts.2, List.cons_ne_nil _ _, List.cons_ne_nil _ _, by simp, by simp⟩

/-- A tag or a comment is one in both texts, or in none. -/
theorem sameTag (h : Veiled quoteMasks m s) : SameTag ('<' :: m) ('<' :: s) := by
  have hopen : Option.Rel _ (after? commentOpen ('<' :: m)) (after? commentOpen ('<' :: s)) :=
    veiled_after? quoteMasks_ne (forall_mem_of_all (by decide)) (.plain '<' h)
  cases hm : after? commentOpen ('<' :: m) <;> cases hs : after? commentOpen ('<' :: s) <;>
    rw [hm, hs] at hopen <;> cases hopen
  · exact sameTag_no_comment h (by rw [hm]; rfl) (by rw [hs]; rfl)
  · next r t hrest =>
    have hclose : Option.Rel _ (cut? commentClose r) (cut? commentClose t) :=
      veiled_cut? quoteMasks_ne (forall_mem_of_all (by decide)) (by decide) hrest
    cases hcr : cut? commentClose r <;> cases hct : cut? commentClose t <;>
      rw [hcr, hct] at hclose <;> cases hclose
    · exact sameTag_no_comment h (by rw [hm]; exact hcr) (by rw [hs]; exact hct)
    · next p q hparts =>
      obtain ⟨hlm, hsm⟩ := tagLength?_comment hm hcr
      obtain ⟨hls, hss⟩ := tagLength?_comment hs hct
      exact .inr ⟨_, p.2, _, q.2, hsm, hss, hparts.2, by simp [commentOpen], by simp [commentOpen],
        hlm, hls⟩

theorem veiled_stripTags (h : Veiled quoteMasks m s) :
    Veiled quoteMasks (stripTags m) (stripTags s) := by
  have hplain : ∀ p ∈ quoteMasks, '<' ∉ p.2 ∧ '<' ∉ p.1 := by decide
  induction hn : m.length using Nat.strongRecOn generalizing m s with
  | ind n ih =>
    show Veiled quoteMasks (erase tagForm m) (erase tagForm s)
    cases h with
    | nil => exact .nil
    | @plain c m s h =>
      have hshorter := ih m.length (by rw [← hn, List.length_cons]; omega) h rfl
      by_cases hc : c = '<'
      · subst hc
        rcases sameTag h with ⟨hm, hs⟩ | ⟨u, m', v, s', hmu, hsv, h', hu, hv, hm, hs⟩
        · rw [erase_cons hm, erase_cons hs]
          exact .plain '<' hshorter
        · rw [hmu] at hm ⊢
          rw [hsv] at hs ⊢
          rw [erase_tag hu hm, erase_tag hv hs]
          refine ih m'.length ?_ h' rfl
          have hlength := congrArg List.length hmu
          have hpos := List.length_pos_iff.2 hu
          rw [List.length_append] at hlength
          omega
      · rw [erase_cons (tagLength?_of_ne hc), erase_cons (tagLength?_of_ne hc)]
        exact .plain c hshorter
    | @mask p m s hp h =>
      rw [erase_word (hplain p hp).1, erase_word (hplain p hp).2]
      refine .mask hp (ih m.length ?_ h rfl)
      have hpos := List.length_pos_iff.2 (quoteMasks_ne p hp).2
      rw [← hn, List.length_append]
      omega

/-! ## Data -/

/-- The first datum is the second one with some of its quotes hidden. -/
inductive Veils : Datum → Datum → Prop where
  | text {m s : Text} (h : Veiled quoteMasks m s) : Veils (.text m) (.text s)
  | list {ms ss : List Text} (h : List.Forall₂ (Veiled quoteMasks) ms ss) :
      Veils (.list ms) (.list ss)

/-- Two results that are data with quotes hidden in the first one, or the same error. -/
inductive Agree {ε : Type} : Except ε Datum → Except ε Datum → Prop where
  | ok {v w : Datum} (h : Veils v w) : Agree (.ok v) (.ok w)
  | error (e : ε) : Agree (.error e) (.error e)

variable {v w : Datum} {a : Arguments} {scope : Scope}

theorem Veils.first (h : Veils v w) : Veiled quoteMasks v.first w.first := by
  cases h with
  | text h => exact h
  | list h =>
    cases h with
    | nil => exact .nil
    | cons h _ => exact h

theorem veils_self (w : Datum) : Veils w w := by
  cases w with
  | text s => exact .text (veiled_self _ s)
  | list items => exact .list (List.forall₂_same.2 fun s _ => veiled_self _ s)

theorem agree_self {ε : Type} (x : Except ε Datum) : Agree x x := by
  cases x with
  | ok w => exact .ok (veils_self w)
  | error e => exact .error e

/-- No quote mark stands in the datum. -/
def Quoteless : Datum → Prop
  | .text s => s.any isQuoteMark = false
  | .list items => ∀ s ∈ items, s.any isQuoteMark = false

theorem veiled_quoteless (hs : s.any isQuoteMark = false) (h : Veiled quoteMasks m s) : m = s := by
  refine h.eq_or_contains.resolve_right ?_
  rintro ⟨p, hp, -, hc⟩
  have hquote : ∀ p ∈ quoteMasks, p.1.any isQuoteMark = true := by decide
  obtain ⟨q, hq⟩ := Option.isSome_iff_exists.1 hc
  rw [cut?_eq_some hq, List.any_append, List.any_append, hquote p hp] at hs
  simp at hs

theorem Veils.eq (hw : Quoteless w) (h : Veils v w) : v = w := by
  cases h with
  | text h => rw [veiled_quoteless hw h]
  | @list ms ss h =>
    refine congrArg Datum.list ?_
    induction h with
    | nil => rfl
    | cons h _ ih =>
      rw [veiled_quoteless (hw _ List.mem_cons_self) h,
        ih fun t ht => hw t (List.mem_cons_of_mem _ ht)]

/-! ## Filters -/

/-- A filter that gives the same whether quotes are hidden or not. -/
def Blind (f : Filter) : Prop := ∀ v w a, Veils v w → Agree (f v a) (f w a)

theorem blind_ofText {f : Text → Text}
    (hf : ∀ m s, Veiled quoteMasks m s → Veiled quoteMasks (f m) (f s)) : Blind (ofText f) :=
  fun _ _ _ h => .ok (.text (hf _ _ h.first))

/-- A filter that does not read its datum. -/
theorem blind_of_const {f : Filter} (hf : ∀ v w a, f v a = f w a) : Blind f := by
  intro v w a _
  rw [hf v w a]
  exact agree_self _

theorem isNumeric_of_mem {s : Text} {c : Char} (hc : c ∈ s) (hblank : isBlank c = false)
    (hpart : isNumeralPart c = false) (hname : c ∉ '_' :: nameLetters) : isNumeric s = false :=
  not_readFloat?_of_mem (mem_trimOf_of_not hc hblank) hblank hpart hname

/-- A text with a quote is no number, nor is it one while the quote is hidden. -/
theorem veiled_numeric (h : Veiled quoteMasks m s) :
    m = s ∨ isNumeric m = false ∧ isNumeric s = false := by
  refine h.eq_or_contains.imp_right fun ⟨p, hp, hm, hs⟩ => ?_
  have hmem : ∀ {w t : Text} {c : Char}, contains w t = true → c ∈ w → c ∈ t := by
    intro w t c hw hc
    obtain ⟨q, hq⟩ := Option.isSome_iff_exists.1 hw
    rw [cut?_eq_some hq]
    simp [hc]
  have hchars : ∀ p ∈ quoteMasks, 'Q' ∈ p.2 ∧ ('"' ∈ p.1 ∨ '\'' ∈ p.1) := by decide
  obtain ⟨hword, hquote⟩ := hchars p hp
  refine ⟨isNumeric_of_mem (hmem hm hword) (by decide) (by decide) (by decide), ?_⟩
  rcases hquote with hquote | hquote
  · exact isNumeric_of_mem (hmem hs hquote) (by decide) (by decide) (by decide)
  · exact isNumeric_of_mem (hmem hs hquote) (by decide) (by decide) (by decide)

theorem blind_absolute : Blind absolute := by
  intro v w a h
  rcases veiled_numeric h.first with he | ⟨hm, hs⟩
  · unfold absolute
    rw [he]
    exact agree_self _
  · unfold absolute
    simp only [hm, hs]
    exact .ok (.text h.first)

/-- The filters that overlook quotes whatever their datum and their arguments are. -/
def blindFilters : List Text :=
  ["abs", "capitalize", "implode", "implodev", "isbdMark", "isbdName", "isbdNameColl", "striptags",
    "title", "upper"]

theorem exists_blind [Host] {name : Text} (h : name ∈ blindFilters) :
    ∃ f, find? name = some f ∧ Blind f := by
  simp only [blindFilters, List.mem_cons, List.not_mem_nil, or_false] at h
  rcases h with rfl | rfl | rfl | rfl | rfl | rfl | rfl | rfl | rfl | rfl
  · exact ⟨absolute, rfl, blind_absolute⟩
  · exact ⟨_, rfl, blind_ofText fun _ _ => veiled_capitalize⟩
  · exact ⟨implode, rfl, blind_of_const fun _ _ _ => rfl⟩
  · exact ⟨implodeValues, rfl, blind_of_const fun _ _ _ => rfl⟩
  · exact ⟨markName, rfl, blind_of_const fun _ _ _ => rfl⟩
  · exact ⟨personName, rfl, blind_of_const fun _ _ _ => rfl⟩
  · exact ⟨organizationName, rfl, blind_of_const fun _ _ _ => rfl⟩
  · exact ⟨_, rfl, blind_ofText fun _ _ => veiled_stripTags⟩
  · exact ⟨_, rfl, blind_ofText fun _ _ => veiled_titleFrom true⟩
  · exact ⟨_, rfl, blind_ofText fun _ _ => veiled_upper⟩

/-- A character of no quote and of no word for one. -/
def IsClear (c : Char) : Prop := Clear quoteMasks c

instance (c : Char) : Decidable (IsClear c) := inferInstanceAs (Decidable (Clear quoteMasks c))

theorem veiled_trimSide {characters : Text} (hclear : ∀ c ∈ characters, IsClear c) (side : Text)
    (h : Veiled quoteMasks m s) :
    Veiled quoteMasks
      (if side = "left" then trimStartOf (fun c => characters.elem c) m
        else if side = "right" then trimEndOf (fun c => characters.elem c) m
        else trimOf (fun c => characters.elem c) m)
      (if side = "left" then trimStartOf (fun c => characters.elem c) s
        else if side = "right" then trimEndOf (fun c => characters.elem c) s
        else trimOf (fun c => characters.elem c) s) := by
  have hall : ∀ c, characters.elem c = true → Clear quoteMasks c := fun c hc =>
    hclear c (List.elem_iff.1 hc)
  split
  · exact veiled_dropWhile quoteMasks_ne hall h
  · split
    · exact veiled_trimEndOf quoteMasks_ne hall h
    · exact veiled_trimOf quoteMasks_ne hall h

theorem agree_trim (hclear : ∀ s ∈ a.at? 0, ∀ c ∈ s, IsClear c) (h : Veils v w) :
    Agree (trimFilter v a) (trimFilter w a) := by
  have hblank : ∀ c ∈ trimmed, IsClear c := forall_mem_of_all (by decide)
  unfold trimFilter
  generalize a.at? 0 = characters at hclear ⊢
  rcases characters with _ | _ | ⟨c, characters⟩
  · exact .ok (.text (veiled_trimSide hblank _ h.first))
  · exact .ok (.text (veiled_trimSide hblank _ h.first))
  · exact .ok (.text (veiled_trimSide (hclear _ rfl) _ h.first))

theorem agree_replace (hclear : ∀ p ∈ a.asPairs, ∀ c ∈ p.1, IsClear c) (h : Veils v w) :
    Agree (replaceFilter v a) (replaceFilter w a) := by
  have hfold : ∀ ps : List (Text × Text), (∀ p ∈ ps, ∀ c ∈ p.1, IsClear c) → ∀ m s,
      Veiled quoteMasks m s → Veiled quoteMasks
        (ps.foldl (fun s p => if p.1 = [] then s else replaceAll p.1 p.2 s) m)
        (ps.foldl (fun s p => if p.1 = [] then s else replaceAll p.1 p.2 s) s) := by
    intro ps
    induction ps with
    | nil => exact fun _ m s h => h
    | cons p ps ih =>
      intro hclear m s h
      refine ih (fun q hq => hclear q (List.mem_cons_of_mem p hq)) _ _ ?_
      dsimp only
      split
      · exact h
      · next hne =>
        exact veiled_replaceAll quoteMasks_ne (hclear p List.mem_cons_self) hne p.2 h
  exact .ok (.text (hfold _ hclear _ _ h.first))

theorem veiled_upTo (stop : Int) {ms ss : List Text} (h : List.Forall₂ (Veiled quoteMasks) ms ss) :
    List.Forall₂ (Veiled quoteMasks) (upTo stop ms) (upTo stop ss) := by
  unfold upTo
  rw [h.length_eq]
  split
  · exact List.forall₂_take _ h
  · exact List.forall₂_take _ h

theorem veiled_splitText {delimiter : Text} (hne : delimiter ≠ [])
    (hclear : ∀ c ∈ delimiter, IsClear c) (limit : Option Int) (h : Veiled quoteMasks m s) :
    List.Forall₂ (Veiled quoteMasks) (splitText delimiter limit m)
      (splitText delimiter limit s) := by
  have hall := veiled_splitAll quoteMasks_ne hclear hne h
  unfold splitText
  rw [if_neg hne, if_neg hne]
  cases limit with
  | none => exact hall
  | some n =>
    dsimp only
    split
    · exact veiled_split quoteMasks_ne hclear hne _ h
    · split
      · exact veiled_upTo n hall
      · exact .cons h .nil

/-- What is read from the arguments is the same for both data. -/
theorem agree_bind {α : Type} (x : Except Halt α) {f g : α → Except Halt Datum}
    (h : ∀ y, Agree (f y) (g y)) : Agree (x >>= f) (x >>= g) := by
  cases x with
  | error e => exact .error e
  | ok y => exact h y

theorem agree_split (hne : a.at? 0 ≠ none ∧ a.at? 0 ≠ some [])
    (hclear : ∀ s ∈ a.at? 0, ∀ c ∈ s, IsClear c) (h : Veils v w) :
    Agree (splitFilter v a) (splitFilter w a) := by
  cases hd : a.at? 0 with
  | none => exact absurd hd hne.1
  | some delimiter =>
    have hne' : delimiter ≠ [] := fun e => hne.2 (hd.trans (congrArg some e))
    unfold splitFilter
    rw [hd]
    refine agree_bind _ fun limit => ?_
    dsimp only [Option.getD_some]
    split
    · exact .error _
    · exact .ok (.list (veiled_splitText hne' (hclear delimiter hd) limit h.first))

/-! ## Parts of a list -/

section

variable {ms ss : List Text} (hlist : List.Forall₂ (Veiled quoteMasks) ms ss)
include hlist

theorem agree_first : Agree (firstFilter (.list ms) a) (firstFilter (.list ss) a) :=
  .ok (.text (Veils.list hlist).first)

theorem agree_last : Agree (lastFilter (.list ms) a) (lastFilter (.list ss) a) := by
  refine .ok (.text ?_)
  have hreverse := List.forall₂_reverse_iff.2 hlist
  show Veiled quoteMasks (ms.getLastD []) (ss.getLastD [])
  rw [List.getLastD_eq_getLast?, List.getLastD_eq_getLast?, ← List.head?_reverse,
    ← List.head?_reverse]
  generalize ms.reverse = ms', ss.reverse = ss' at hreverse ⊢
  cases hreverse with
  | nil => exact .nil
  | cons h _ => exact h

theorem agree_length : Agree (lengthFilter (.list ms) a) (lengthFilter (.list ss) a) := by
  unfold lengthFilter
  dsimp only
  rw [hlist.length_eq]
  exact agree_self _

theorem agree_slice : Agree (slice (.list ms) a) (slice (.list ss) a) := by
  refine agree_bind _ fun start => agree_bind _ fun size => .ok (.list ?_)
  unfold sublist
  dsimp only
  rw [hlist.length_eq]
  exact List.forall₂_drop _ (veiled_upTo _ hlist)

end

theorem agree_escape (hw : '"' ∉ w.first) (h : Veils v w) :
    Agree (ofText escapeMarkup v a) (ofText escapeMarkup w a) := by
  refine .ok (.text (veiled_flatMap (by decide) (fun p hp hpart => ?_) h.first))
  simp only [quoteMasks, List.mem_cons, List.not_mem_nil, or_false] at hp
  rcases hp with rfl | rfl
  · exact absurd (hpart.subset List.mem_cons_self) hw
  · decide

/-- A table between braces keeps what is no key of it. -/
theorem agree_table [Host] {inside : Text} (htext : trim a.text = '{' :: inside)
    (hkeys : ∀ k ∈ Pairs.keys (Arguments.asPairs ⟨trim inside.dropLast, a.scope⟩),
      k ≠ w.first ∧ Unspelled k) (h : Veils v w) : Agree (table v a) (table w a) := by
  have hplain : Pairs.get? w.first (Arguments.asPairs ⟨trim inside.dropLast, a.scope⟩) = none :=
    Pairs.get?_eq_none.2 fun hkey => (hkeys _ hkey).1 rfl
  have hhidden : Pairs.get? v.first (Arguments.asPairs ⟨trim inside.dropLast, a.scope⟩) = none := by
    refine Pairs.get?_eq_none.2 fun hkey => ?_
    obtain ⟨hne, hunspelled⟩ := hkeys _ hkey
    rcases h.first.eq_or_contains with he | ⟨p, hp, hm, -⟩
    · exact hne he
    · -- The word of a hidden quote is in no key.
      obtain ⟨name, hname, hword⟩ := quoteMasks_word p hp
      have hpart : name <:+: p.2 := ⟨['_', '_'], ['_', '_'], hword.symm⟩
      have hspelled := contains_iff_isInfix.2 (hpart.trans (contains_iff_isInfix.1 hm))
      rw [hunspelled name hname] at hspelled
      cases hspelled
  unfold table
  simp only [htext, hplain, hhidden]
  exact .ok (.text h.first)

/-- An identifier is written behind its index; only one kind is checked. -/
theorem agree_indexed (hindex : a.at? 0 ≠ some "rameau".toList) (h : Veils v w) :
    Agree (indexed v a) (indexed w a) := by
  unfold indexed
  unfold Arguments.at? at hindex
  generalize a.asList = arguments at hindex ⊢
  rcases arguments with _ | ⟨_ | ⟨c, index⟩, more⟩
  · exact .ok h
  · exact .ok h
  · have hne : c :: index ≠ "rameau".toList := fun he => hindex (congrArg some he)
    rcases more with _ | ⟨code, _⟩
    · dsimp only
      rw [if_neg hne, if_neg hne]
      split
      · exact .ok (.text ((veiled_self _ _).append h.first))
      · exact .ok (.text ((veiled_self _ _).append h.first))
    · exact .ok (.text (veiled_self _ _))

/-! ## Steps -/

/-- A step that gives the same for the datum, whether its quotes are hidden or not. -/
inductive Overlooks [Host] (scope : Scope) (w : Datum) (step : Text) : Prop where
  /-- There are no quotes. -/
  | quoteless (hw : Quoteless w)
  /-- The step is no filter. -/
  | unknown (hname : isFilter (readCall step).1 = false)
  | blind (hname : (readCall step).1 ∈ blindFilters)
  /-- Only double quotes are escaped. -/
  | escape (hname : (readCall step).1 = "e".toList ∨ (readCall step).1 = "escape".toList)
      (hw : '"' ∉ w.first)
  /-- The filter looks at other characters only. -/
  | trim (hname : (readCall step).1 = "trim".toList)
      (hclear : ∀ s ∈ Arguments.at? ⟨(readCall step).2, scope⟩ 0, ∀ c ∈ s, IsClear c)
  | replace (hname : (readCall step).1 = "replace".toList)
      (hclear : ∀ p ∈ Arguments.asPairs ⟨(readCall step).2, scope⟩, ∀ c ∈ p.1, IsClear c)
  | split (hname : (readCall step).1 = "split".toList) {delimiter : Text}
      (hdelimiter : Arguments.at? ⟨(readCall step).2, scope⟩ 0 = some delimiter)
      (hne : delimiter ≠ []) (hclear : ∀ c ∈ delimiter, IsClear c)
  /-- The table has no such key. -/
  | table (hname : (readCall step).1 = "table".toList) {inside : Text}
      (htext : trim (readCall step).2 = '{' :: inside)
      (hkeys : ∀ k ∈ Pairs.keys (Arguments.asPairs ⟨trim inside.dropLast, scope⟩),
        k ≠ w.first ∧ Unspelled k)
  | indexed (hname : (readCall step).1 = "unimarcIndex".toList)
      (hindex : Arguments.at? ⟨(readCall step).2, scope⟩ 0 ≠ some "rameau".toList)
  /-- The items of a list are counted, and not the characters of a text. -/
  | part {items : List Text} (hw : w = .list items)
      (hname : (readCall step).1 ∈ (["first", "last", "length", "slice"] : List Text))

theorem applyStep_of_find? [Host] {step : Text} {f : Filter} (hf : find? (readCall step).1 = some f)
    (v : Datum) : applyStep scope v step = applyFilter f v ⟨(readCall step).2, scope⟩ := by
  unfold applyStep
  simp only [hf]

theorem agree_applyFilter {f : Filter} (hf : Agree (f v a) (f w a)) (h : Veils v w) :
    Agree (applyFilter f v a) (applyFilter f w a) := by
  unfold applyFilter
  generalize f v a = x, f w a = y at hf ⊢
  cases hf with
  | ok h' => exact .ok h'
  | error e =>
    cases e with
    | keep => exact .ok h
    | notWhole why => exact .error why

theorem agree_applyStep [Host] {step : Text} {f : Filter} (hfind : find? (readCall step).1 = some f)
    (hf : Agree (f v ⟨(readCall step).2, scope⟩) (f w ⟨(readCall step).2, scope⟩))
    (h : Veils v w) : Agree (applyStep scope v step) (applyStep scope w step) := by
  rw [applyStep_of_find? hfind, applyStep_of_find? hfind]
  exact agree_applyFilter hf h

theorem Overlooks.agree [Host] {step : Text} (hstep : Overlooks scope w step) (h : Veils v w) :
    Agree (applyStep scope v step) (applyStep scope w step) := by
  cases hstep with
  | quoteless hw =>
    rw [h.eq hw]
    exact agree_self _
  | unknown hname =>
    have hfind : find? (readCall step).1 = none :=
      Option.isNone_iff_eq_none.1 (Option.isSome_eq_false_iff.1 hname)
    unfold applyStep
    simp only [hfind]
    split
    · exact agree_self _
    · exact .ok h
  | blind hname =>
    obtain ⟨f, hfind, hf⟩ := exists_blind hname
    exact agree_applyStep hfind (hf v w _ h) h
  | escape hname hw =>
    have hfind : find? (readCall step).1 = some (ofText escapeMarkup) := by
      rcases hname with hname | hname <;> (rw [hname]; rfl)
    exact agree_applyStep hfind (agree_escape hw h) h
  | trim hname hclear =>
    exact agree_applyStep (by rw [hname]; rfl) (agree_trim hclear h) h
  | replace hname hclear =>
    exact agree_applyStep (by rw [hname]; rfl) (agree_replace hclear h) h
  | split hname hdelimiter hne hclear =>
    refine agree_applyStep (by rw [hname]; rfl) (agree_split ?_ (fun s hs => ?_) h) h
    · rw [hdelimiter]
      exact ⟨Option.some_ne_none _, fun e => hne (Option.some.inj e)⟩
    · rw [hdelimiter] at hs
      exact Option.some.inj hs ▸ hclear
  | table hname htext hkeys =>
    exact agree_applyStep (by rw [hname]; rfl) (agree_table htext hkeys h) h
  | indexed hname hindex =>
    exact agree_applyStep (by rw [hname]; rfl) (agree_indexed hindex h) h
  | part hw hname =>
    subst hw
    cases h with
    | list hlist =>
      simp only [List.mem_cons, List.not_mem_nil, or_false] at hname
      rcases hname with hname | hname | hname | hname
      · exact agree_applyStep (by rw [hname]; rfl) (agree_first hlist) (.list hlist)
      · exact agree_applyStep (by rw [hname]; rfl) (agree_last hlist) (.list hlist)
      · exact agree_applyStep (by rw [hname]; rfl) (agree_length hlist) (.list hlist)
      · exact agree_applyStep (by rw [hname]; rfl) (agree_slice hlist) (.list hlist)

/-- Each step overlooks the quotes of the datum that it is given. -/
def OverlooksAll [Host] (scope : Scope) : Datum → List Text → Prop
  | _, [] => True
  | w, step :: steps =>
    Overlooks scope w step ∧ ∀ w', applyStep scope w step = .ok w' → OverlooksAll scope w' steps

/-- **A chain** whose steps overlook quotes gives the same, with quotes hidden again. -/
theorem OverlooksAll.agree [Host] {steps : List Text} (hsteps : OverlooksAll scope w steps)
    (h : Veils v w) : Agree (runSteps scope v steps) (runSteps scope w steps) := by
  induction steps generalizing v w with
  | nil => exact .ok h
  | cons step steps ih =>
    obtain ⟨hstep, hrest⟩ := hsteps
    have hagree := hstep.agree h
    rw [runSteps, runSteps, List.foldlM_cons, List.foldlM_cons]
    cases hv : applyStep scope v step <;> cases hw : applyStep scope w step <;>
      rw [hv, hw] at hagree <;> cases hagree
    · exact .error _
    · next h' => exact ih (hrest _ hw) h'

end Crosswalk.Filter
