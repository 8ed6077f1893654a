import Crosswalk.Proofs.Template.Filling
import Crosswalk.Proofs.Template.Veils

/-!
# Hidden quotes

While expressions are evaluated, words stand for the quotes of queried texts, as masks stand for
tokens:

    Veiled quoteMasks (hideQuotes s) s                                       (veiled_hideQuotes)
    Veiled quoteMasks m s → showQuotes m = s                                (Veiled.showQuotes)

The second one needs that `s` spells none of the words, not even where one reaches into the next
(`Unspelled`).
-/

namespace Crosswalk.Template

open Text

/-! ## Quotes and their words -/

def quoteMasks : Masks := [(['"'], doubleQuoteWord), (['\''], singleQuoteWord)]

/-- The words without the underscores around them. -/
def quoteNames : List Text := ["DQUOTE", "SQUOTE"]

theorem quoteMasks_word : ∀ p ∈ quoteMasks,
    ∃ name ∈ quoteNames, p.2 = '_' :: '_' :: (name ++ ['_', '_']) := by
  refine List.forall_mem_cons.2 ⟨⟨"DQUOTE", by decide, by decide⟩, List.forall_mem_singleton.2 ?_⟩
  exact ⟨"SQUOTE", by decide, by decide⟩

/-- A quote as its word, any other character as it is. -/
def hiddenChar (c : Char) : Text :=
  if c = '"' then doubleQuoteWord else if c = '\'' then singleQuoteWord else [c]

theorem hideQuotes_flatMap (s : Text) : hideQuotes s = s.flatMap hiddenChar := by
  rw [hideQuotes, replaceAll_char, replaceAll_char, List.flatMap_assoc]
  refine List.flatMap_congr fun c _ => ?_
  unfold hiddenChar
  split
  · decide
  · exact List.append_nil _

theorem veiled_hideQuotes (s : Text) : Veiled quoteMasks (hideQuotes s) s := by
  rw [hideQuotes_flatMap]
  induction s with
  | nil => exact .nil
  | cons c s ih =>
    rw [List.flatMap_cons, hiddenChar]
    split
    · next hc =>
      rw [hc]
      exact .mask (p := (['"'], doubleQuoteWord)) (by decide) ih
    · split
      · next hc =>
        rw [hc]
        exact .mask (p := (['\''], singleQuoteWord)) (by decide) ih
      · exact .plain c ih

theorem not_mem_hideQuotes {q : Char} (hq : isQuoteMark q = true) (s : Text) :
    q ∉ hideQuotes s := by
  have hwords : ∀ w ∈ [doubleQuoteWord, singleQuoteWord], ∀ c ∈ w, isQuoteMark c = false :=
    List.forall_mem_cons.2 ⟨forall_mem_of_all (by decide),
      List.forall_mem_singleton.2 (forall_mem_of_all (by decide))⟩
  rw [hideQuotes_flatMap, List.mem_flatMap]
  rintro ⟨c, -, hc⟩
  unfold hiddenChar at hc
  split at hc
  · exact absurd hq (by rw [hwords _ (by simp) q hc]; decide)
  · next hdouble =>
    split at hc
    · exact absurd hq (by rw [hwords _ (by simp) q hc]; decide)
    · next hsingle =>
      rw [List.mem_singleton.1 hc] at hq
      simp [isQuoteMark, hdouble, hsingle] at hq

/-! ## Showing them -/

/-- Neither word is spelled, nor the rest of one that starts inside another. -/
def Unspelled (s : Text) : Prop := ∀ name ∈ quoteNames, contains name s = false

instance (s : Text) : Decidable (Unspelled s) :=
  inferInstanceAs (Decidable (∀ name ∈ quoteNames, _))

theorem Unspelled.of_append {a b : Text} (h : Unspelled (a ++ b)) : Unspelled b :=
  fun name hname => (not_contains_append (h name hname)).2

variable {masks : Masks} {m s : Text}

/-- The end of a word is read only where the text has it. -/
theorem Veiled.startsWith_name (hm : ∀ p ∈ masks, p ∈ quoteMasks) {name u a : Text}
    (hname : name ∈ quoteNames) (hprobe : '_' :: name = u ++ a) (h : Veiled masks m s)
    (ha : startsWith a m = true) : startsWith a s = true := by
  induction h generalizing u a with
  | nil => exact ha
  | plain c _ ih =>
    cases a with
    | nil => exact startsWith_nil _
    | cons y a =>
      obtain ⟨rfl, ha'⟩ := startsWith_cons.1 ha
      exact startsWith_cons.2 ⟨rfl, ih (u := u ++ [y]) (by rw [hprobe]; simp) ha'⟩
  | @mask p m s hp _ _ =>
    -- A word starts with two underscores, and a name has none.
    obtain ⟨other, -, hword⟩ := quoteMasks_word p (hm p hp)
    have hplain : ∀ name ∈ quoteNames, '_' ∉ name ∧ name ≠ [] := by decide
    obtain ⟨hunderscore, hne⟩ := hplain name hname
    cases a with
    | nil => exact startsWith_nil _
    | cons y a =>
      exfalso
      rw [hword] at ha
      obtain ⟨rfl, ha'⟩ := startsWith_cons.1 ha
      cases u with
      | nil =>
        obtain ⟨-, rfl⟩ := List.cons.inj hprobe
        cases name with
        | nil => exact hne rfl
        | cons x name =>
          obtain ⟨rfl, -⟩ := startsWith_cons.1 ha'
          exact hunderscore List.mem_cons_self
      | cons z u =>
        refine hunderscore ?_
        rw [(List.cons.inj hprobe).2]
        simp

/-- One word is replaced by its quote. -/
theorem Veiled.showQuote {p : Text × Text} (hp : p ∈ quoteMasks)
    (hm : ∀ q ∈ masks, q ∈ quoteMasks ∧ q.2 ≠ p.2) (hs : Unspelled s)
    (h : Veiled (p :: masks) m s) : Veiled masks (Text.replaceAll p.2 p.1 m) s := by
  obtain ⟨name, hname, hword⟩ := quoteMasks_word p hp
  have hne : p.2 ≠ [] := by rw [hword]; exact List.cons_ne_nil _ _
  have hall : ∀ q ∈ p :: masks, q ∈ quoteMasks :=
    List.forall_mem_cons.2 ⟨hp, fun q hq => (hm q hq).1⟩
  have hprobe : ∀ {m s u a}, Unspelled s → Veiled (p :: masks) m s → '_' :: name = u ++ a →
      name <:+ a → startsWith (a ++ ['_', '_']) m = false := by
    intro m s u a hs h ha hsuffix
    refine Bool.eq_false_iff.2 fun hstart => ?_
    have hshown := h.startsWith_name hall hname ha (startsWith_of_append hstart)
    obtain ⟨v, rfl⟩ := hsuffix
    obtain ⟨r, rfl⟩ := startsWith_iff.1 hshown
    have hspelled := hs name hname
    rw [List.append_assoc, contains_middle] at hspelled
    cases hspelled
  induction h with
  | nil =>
    rw [replaceAll_nil hne]
    exact .nil
  | @plain c m s h ih =>
    have hs' : Unspelled s := hs.of_append (a := [c])
    have hstart : startsWith p.2 (c :: m) = false := by
      refine Bool.eq_false_iff.2 fun hstart => ?_
      rw [hword] at hstart
      have hrest : startsWith ('_' :: name ++ ['_', '_']) m = true := (startsWith_cons.1 hstart).2
      rw [hprobe (u := []) hs' h rfl (List.suffix_cons _ _)] at hrest
      cases hrest
    rw [replaceAll_cons hne hstart]
    exact .plain c (ih hs')
  | @mask q m s hq h ih =>
    have hs' : Unspelled s := hs.of_append
    rcases List.mem_cons.1 hq with rfl | hq
    · rw [replaceAll_append_self _ hne]
      exact (veiled_self masks _).append (ih hs')
    · have hlast : startsWith p.2 ('_' :: m) = false := by
        refine Bool.eq_false_iff.2 fun hstart => ?_
        rw [hword] at hstart
        have hrest : startsWith ('_' :: name ++ ['_', '_']) m = true := (startsWith_cons.1 hstart).2
        rw [hprobe (u := []) hs' h rfl (List.suffix_cons _ _)] at hrest
        cases hrest
      have hends : startsWith p.2 ('_' :: '_' :: m) = false := by
        refine Bool.eq_false_iff.2 fun hstart => ?_
        rw [hword] at hstart
        have hrest : startsWith (name ++ ['_', '_']) m = true :=
          (startsWith_cons.1 (startsWith_cons.1 hstart).2).2
        rw [hprobe (u := ['_']) (a := name) hs' h rfl (List.suffix_refl _)] at hrest
        cases hrest
      have hquiet : Quiet (startsWith p.2) q.2 m := by
        obtain ⟨hother, hdiffer⟩ := hm q hq
        simp only [quoteMasks, List.mem_cons, List.not_mem_nil, or_false] at hp hother
        rcases hp with rfl | rfl <;> rcases hother with rfl | rfl
        · exact absurd rfl hdiffer
        · exact ⟨rfl, rfl, rfl, rfl, rfl, rfl, rfl, rfl, hends, hlast, trivial⟩
        · exact ⟨rfl, rfl, rfl, rfl, rfl, rfl, rfl, rfl, hends, hlast, trivial⟩
        · exact absurd rfl hdiffer
      rw [replaceAll_quiet hne hquiet]
      exact .mask hq (ih hs')

theorem Veiled.showQuotes (hs : Unspelled s) (h : Veiled quoteMasks m s) : showQuotes m = s := by
  have hdouble : Veiled [(['\''], singleQuoteWord)] (Text.replaceAll doubleQuoteWord ['"'] m) s :=
    h.showQuote (by decide) (by decide) hs
  exact (hdouble.showQuote (by decide) (by decide) hs).eq

end Crosswalk.Template
