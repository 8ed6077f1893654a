import Crosswalk.Proofs.Template.Masks
import Mathlib.Data.List.Sort

/-!
# Compiled layouts

What `compileTemplate` finds in the text of a layout:

    s ∈ m.replace ↔ s is the text of a queried token
    every expression is in m.filters, flagged when it has a queried token
    every other token outside of the expressions is in m.filters, not flagged

and nothing else is in `m.filters` but tokens (`compiled_template`). `compile` takes the literal
text at both ends of the layout off first (`compile_layout`).
-/

namespace Crosswalk.Template

open Text

/-! ## Pairs of tokens and masks -/

section

variable {mask : Nat → Text} {tokens : List Text} {key w : Text}

theorem keys_masksFor : Pairs.keys (masksFor mask tokens) = tokens := by
  unfold Pairs.keys masksFor
  rw [List.map_fst_zip]
  simp

theorem values_masksFor :
    (masksFor mask tokens).map (·.2) = (List.range tokens.length).map mask := by
  unfold masksFor
  rw [List.map_snd_zip]
  simp

theorem mem_masksFor {p : Text × Text} (h : p ∈ masksFor mask tokens) :
    p.1 ∈ tokens ∧ ∃ i, p.2 = mask i := by
  unfold masksFor at h
  obtain ⟨i, _, hi⟩ := List.mem_map.1 (List.of_mem_zip h).2
  exact ⟨(List.of_mem_zip h).1, i, hi.symm⟩

theorem get?_masksFor (mask : Nat → Text) (h : key ∈ tokens) :
    ∃ i, Pairs.get? key (masksFor mask tokens) = some (mask i) := by
  have hk : (Pairs.get? key (masksFor mask tokens)).isSome = true := by
    rw [Pairs.get?_isSome, keys_masksFor]
    exact h
  obtain ⟨v, hv⟩ := Option.isSome_iff_exists.1 hk
  obtain ⟨i, hi⟩ := (mem_masksFor (Pairs.mem_of_get? hv)).2
  exact ⟨i, hi ▸ hv⟩

/-- Each mask with the token that it hides. -/
def unmasked (masks : Masks) : Pairs Text Text := masks.map Prod.swap

theorem reveal_eq_fill (masks : Masks) (s : Text) : masks.reveal s = fill (unmasked masks) s := by
  unfold Masks.reveal fill unmasked
  rw [List.foldl_map]
  rfl

theorem get?_unmasked (hmask : Function.Injective mask)
    (h : (key, w) ∈ masksFor mask tokens) :
    Pairs.get? w (unmasked (masksFor mask tokens)) = some key := by
  refine Pairs.get?_of_mem ?_ (List.mem_map.2 ⟨_, h, rfl⟩)
  have : Pairs.keys (unmasked (masksFor mask tokens)) = (masksFor mask tokens).map (·.2) := by
    unfold Pairs.keys unmasked
    rw [List.map_map]
    rfl
  rw [this, values_masksFor]
  exact List.nodup_range.map hmask

end

theorem maskOf_injective (stem : Text) : Function.Injective (maskOf stem) := by
  intro i j h
  have := List.append_cancel_left (List.cons.inj (List.cons.inj h).2).2
  exact natText_injective (List.append_cancel_right this)

/-! ## The filter expressions that are found -/

theorem placed_values {α : Type} (before : Int) (ps : List (Piece α)) :
    (placed before ps).map (·.2) = ps.filterMap Piece.found? := by
  induction ps generalizing before with
  | nil => rfl
  | cons p ps ih =>
    cases p with
    | char c => exact ih _
    | found value s => exact congrArg (value :: ·) (ih _)

theorem sortBy_eq_insertionSort {α : Type} (le : α → α → Bool) (xs : List α) :
    sortBy le xs = xs.insertionSort fun a b => le a b = true := by
  have hinsert : ∀ x ys, insertBy le x ys = List.orderedInsert (fun a b => le a b = true) x ys := by
    intro x ys
    induction ys with
    | nil => rfl
    | cons y ys ih => rw [insertBy, List.orderedInsert_cons, ih]
  induction xs with
  | nil => rfl
  | cons x xs ih => rw [List.insertionSort_cons, ← ih, ← hinsert]; rfl

theorem mem_expressions {references : Masks} {masked e : Text} :
    e ∈ expressions references masked ↔ e ∈ readings expressionForm masked ∨
      ∃ p ∈ references, contains p.2 (erase expressionForm masked) = true ∧ e = p.2 := by
  unfold expressions
  simp only [sortBy_eq_insertionSort, List.mem_map, List.mem_insertionSort, List.mem_append,
    List.mem_filterMap]
  constructor
  · rintro ⟨x, hx | ⟨p, hp, hx⟩, rfl⟩
    · left
      unfold readings
      rw [← placed_values 0]
      exact List.mem_map_of_mem hx
    · right
      split at hx
      · next hc => exact ⟨p, hp, hc, by rw [← Option.some.inj hx]⟩
      · cases hx
  · rintro (h | ⟨p, hp, hc, rfl⟩)
    · unfold readings at h
      rw [← placed_values 0] at h
      obtain ⟨x, hx, rfl⟩ := List.mem_map.1 h
      exact ⟨x, Or.inl hx, rfl⟩
    · exact ⟨_, Or.inr ⟨p, hp, if_pos hc⟩, rfl⟩

section

variable (queries references : Masks) {masked : Text}

/-- One more expression among the filters that are found. -/
def addFilter (found : List (Text × Bool)) (expression : Text) : List (Text × Bool) :=
  if reservedTokens.elem (references.reveal expression) then found
  else if (found.map (·.1)).elem (revealed queries references expression).1 then found
  else found ++ [revealed queries references expression]

variable {queries references}

theorem mem_addFilter {found : List (Text × Bool)} {e : Text} {p : Text × Bool}
    (h : p ∈ addFilter queries references found e) : p ∈ found ∨
      reservedTokens.elem (references.reveal e) = false ∧ p = revealed queries references e := by
  unfold addFilter at h
  split at h
  · exact Or.inl h
  · next hres =>
    split at h
    · exact Or.inl h
    · rcases List.mem_append.1 h with h | h
      · exact Or.inl h
      · exact Or.inr ⟨by simpa using hres, List.mem_singleton.1 h⟩

theorem addFilter_mono {found : List (Text × Bool)} (e : Text) {s : Text}
    (h : s ∈ found.map (·.1)) : s ∈ (addFilter queries references found e).map (·.1) := by
  unfold addFilter
  split
  · exact h
  · split
    · exact h
    · rw [List.map_append]
      exact List.mem_append_left _ h

theorem addFilter_complete (found : List (Text × Bool)) {e : Text}
    (h : reservedTokens.elem (references.reveal e) = false) :
    (revealed queries references e).1 ∈ (addFilter queries references found e).map (·.1) := by
  unfold addFilter
  rw [h, if_neg (by decide)]
  split
  · next hm => exact List.elem_iff.1 hm
  · rw [List.map_append]
    exact List.mem_append_right _ List.mem_cons_self

/-- Every filter is a revealed expression. -/
theorem mem_filtersOf {p : Text × Bool} (h : p ∈ filtersOf queries references masked) :
    ∃ e ∈ expressions references masked, reservedTokens.elem (references.reveal e) = false ∧
      p = revealed queries references e := by
  have hfold : ∀ (es : List Text) (found : List (Text × Bool)),
      p ∈ es.foldl (addFilter queries references) found → p ∈ found ∨
        ∃ e ∈ es, reservedTokens.elem (references.reveal e) = false ∧
          p = revealed queries references e := by
    intro es
    induction es with
    | nil => exact fun found h => Or.inl h
    | cons e es ih =>
      intro found h
      rcases ih _ h with hm | ⟨e', he', hr⟩
      · rcases mem_addFilter hm with hm | hm
        · exact Or.inl hm
        · exact Or.inr ⟨e, List.mem_cons_self, hm⟩
      · exact Or.inr ⟨e', List.mem_cons_of_mem e he', hr⟩
  exact (hfold _ [] h).resolve_left List.not_mem_nil

/-- Every expression is a filter, unless it is a reserved token. -/
theorem filtersOf_complete (queries : Masks) {e : Text} (he : e ∈ expressions references masked)
    (hres : reservedTokens.elem (references.reveal e) = false) :
    (revealed queries references e).1 ∈ (filtersOf queries references masked).map (·.1) := by
  have hmono : ∀ (es : List Text) (found : List (Text × Bool)) (s : Text),
      s ∈ found.map (·.1) → s ∈ (es.foldl (addFilter queries references) found).map (·.1) := by
    intro es
    induction es with
    | nil => exact fun found s h => h
    | cons e es ih => exact fun found s h => ih _ s (addFilter_mono e h)
  have hfold : ∀ (es : List Text) (found : List (Text × Bool)), e ∈ es →
      (revealed queries references e).1 ∈
        (es.foldl (addFilter queries references) found).map (·.1) := by
    intro es
    induction es with
    | nil => exact fun found h => absurd h List.not_mem_nil
    | cons e' es ih =>
      intro found h
      rcases List.mem_cons.1 h with rfl | h
      · exact hmono es _ _ (addFilter_complete found hres)
      · exact ih _ h
  exact hfold _ [] he

end

/-! ## Chains are no tokens -/

theorem Chain.Proper.expression_ne_text {c : Chain} (hc : c.Proper) (f : Token → Text) {t : Token}
    (ht : t.Proper) : c.expression f ≠ t.text := by
  intro e
  rw [Chain.expression_eq_braced] at e
  have e' : ' ' :: (c.write f ++ [' ']) = t.inside := by
    have := (List.cons.inj (List.cons.inj e).2).2
    exact List.append_cancel_right this
  cases t with
  | query path =>
    obtain ⟨d, s, hd, hb⟩ := ProperPath.first_eq ht
    have : ' ' :: (c.write f ++ [' ']) = d :: s := e'.trans hd
    rw [← (List.cons.inj this).1] at hb
    exact absurd hb (by decide)
  | named name =>
    have := List.append_cancel_right (List.cons.inj e').2
    exact hc.write_ne_name f (ProperName.word ht) this

/-- A chain whose tokens are written in two ways that differ at their first characters. -/
theorem Chain.write_ne {f g : Token → Text} {c : Chain}
    (h : ∀ t ∈ c.tokens, f t = g t ∨ ∃ a b x y, f t = a :: x ∧ g t = b :: y ∧ a ≠ b)
    (hne : ∃ t ∈ c.tokens, f t ≠ g t) : c.write f ≠ c.write g := by
  obtain ⟨first, rest⟩ := c
  intro e
  replace e := List.append_cancel_left e
  unfold Chain.tokens at h hne
  simp only at h hne e
  induction rest with
  | nil =>
    obtain ⟨t, ht, _⟩ := hne
    cases ht
  | cons p rest ih =>
    rw [List.flatMap_cons, List.flatMap_cons] at e
    rcases h p.1 List.mem_cons_self with hp | ⟨a, b, x, y, ha, hb, hab⟩
    · rw [hp] at e
      obtain ⟨t, ht, hd⟩ := hne
      rcases List.mem_cons.1 ht with rfl | ht
      · exact absurd hp hd
      · exact ih (fun t ht => h t (List.mem_cons_of_mem _ ht)) ⟨t, ht, hd⟩
          (List.append_cancel_left e)
    · rw [ha, hb] at e
      exact hab (List.cons.inj e).1

/-! ## Hiding the tokens of a layout -/

namespace Layout

/-- The queries of a layout with their masks. -/
def queries (l : Layout) : Masks :=
  masksFor queryMask (distinct (readings replacementForm l.text))

/-- A token when the queries are hidden. -/
def hideQuery (l : Layout) (t : Token) : Text := look l.queries t.text

/-- The other tokens of a layout with their masks. -/
def references (l : Layout) : Masks :=
  masksFor referenceMask (distinct (readings referenceForm (l.queries.hide l.text)))

/-- A token when all of them are hidden. -/
def hide (l : Layout) (t : Token) : Text := look l.references (l.hideQuery t)

end Layout

section

variable {l : Layout} (hl : ∀ seg ∈ l, seg.Proper)

include hl

theorem mem_queries {s : Text} : s ∈ distinct (readings replacementForm l.text) ↔
    ∃ t ∈ l.tokens, t.isQueried = true ∧ s = t.text := by
  rw [mem_distinct, readings_replacements hl, List.mem_flatMap]
  unfold Token.replacement
  refine exists_congr fun t => and_congr_right fun _ => ?_
  cases t.isQueried <;> simp

theorem hideQuery_queried {t : Token} (ht : t ∈ l.tokens) (hq : t.isQueried = true) :
    ∃ i, l.hideQuery t = queryMask i ∧ (t.text, queryMask i) ∈ l.queries := by
  obtain ⟨i, hi⟩ := get?_masksFor queryMask ((mem_queries hl).2 ⟨t, ht, hq, rfl⟩)
  refine ⟨i, ?_, Pairs.mem_of_get? hi⟩
  unfold Layout.hideQuery look Layout.queries
  rw [hi]
  rfl

theorem hideQuery_unqueried {t : Token} (ht : t ∈ l.tokens) (hq : t.isQueried = false) :
    l.hideQuery t = t.text := by
  have hnone : Pairs.get? t.text l.queries = none := by
    refine Pairs.get?_eq_none.2 fun hm => ?_
    unfold Layout.queries at hm
    rw [keys_masksFor] at hm
    obtain ⟨t', ht', hq', e⟩ := (mem_queries hl).1 hm
    have := Token.Proper.text_injective (Layout.proper_of_mem_tokens hl ht)
      (Layout.proper_of_mem_tokens hl ht') e
    rw [this, hq'] at hq
    cases hq
  unfold Layout.hideQuery look
  rw [hnone]
  rfl

/-- Rounds that hide tokens. -/
theorem fill_masksFor {mask : Nat → Text} (hmask : ∀ i, IsMask (mask i)) {keys : List Text}
    (hkeys : ∀ s ∈ keys, ∃ t ∈ l.tokens, s = t.text) {f : Token → Text}
    (hf : ∀ t ∈ l.tokens, Filled f t) :
    fill (masksFor mask keys) (l.write f (Chain.expression f)) =
      l.write (fun t => look (masksFor mask keys) (f t))
        (Chain.expression fun t => look (masksFor mask keys) (f t)) := by
  refine fill_tokens hl _ (fun p hp => ?_) (fun p hp c hc f => ?_) f hf fun t _ _ v hv => ?_
  · obtain ⟨t, ht, e⟩ := hkeys _ (mem_masksFor hp).1
    rw [e]
    exact (Layout.proper_of_mem_tokens hl ht).isKey
  · obtain ⟨t, ht, e⟩ := hkeys _ (mem_masksFor hp).1
    rw [e]
    exact Chain.Proper.expression_ne_text (hl _ hc) f (Layout.proper_of_mem_tokens hl ht)
  · obtain ⟨i, hi⟩ : ∃ i, v = mask i := (mem_masksFor (Pairs.mem_of_get? hv)).2
    exact hi ▸ (hmask i).solid.bare

theorem hide_queries : l.queries.hide l.text =
    l.write l.hideQuery (Chain.expression l.hideQuery) :=
  fill_masksFor hl isMask_query
    (fun s hs => by
      obtain ⟨t, ht, _, e⟩ := (mem_queries hl).1 hs
      exact ⟨t, ht, e⟩)
    fun _ _ => Or.inl rfl

theorem filled_hideQuery {t : Token} (ht : t ∈ l.tokens) : Filled l.hideQuery t := by
  cases hq : t.isQueried with
  | true =>
    obtain ⟨i, hi, _⟩ := hideQuery_queried hl ht hq
    exact Or.inr (hi ▸ (isMask_query i).solid.bare)
  | false => exact Or.inl (hideQuery_unqueried hl ht hq)

theorem mem_references {s : Text} :
    s ∈ distinct (readings referenceForm (l.queries.hide l.text)) ↔
      ∃ t ∈ l.tokens, t.isQueried = false ∧ s = t.text := by
  rw [mem_distinct, hide_queries hl, readings_references hl, List.mem_flatMap]
  · unfold Token.unqueried
    refine exists_congr fun t => and_congr_right fun _ => ?_
    cases t.isQueried <;> simp
  · intro t ht
    split
    · next hq =>
      obtain ⟨i, hi, _⟩ := hideQuery_queried hl ht hq
      exact hi ▸ (isMask_query i).solid.bare
    · next hq => exact hideQuery_unqueried hl ht (by simpa using hq)

theorem hide_references : l.references.hide (l.queries.hide l.text) =
    l.write l.hide (Chain.expression l.hide) := by
  rw [hide_queries hl]
  refine fill_masksFor hl isMask_reference (fun s hs => ?_) fun t ht => filled_hideQuery hl ht
  obtain ⟨t, ht, _, e⟩ := (mem_references hl).1 hs
  exact ⟨t, ht, e⟩

theorem hide_queried {t : Token} (ht : t ∈ l.tokens) (hq : t.isQueried = true) :
    ∃ i, l.hide t = queryMask i ∧ l.hideQuery t = queryMask i := by
  obtain ⟨i, hi, _⟩ := hideQuery_queried hl ht hq
  refine ⟨i, ?_, hi⟩
  have hnone : Pairs.get? (queryMask i) l.references = none := by
    refine get?_bare (fun p hp => ?_) (isMask_query i).solid.bare
    obtain ⟨t', ht', _, e⟩ := (mem_references hl).1 (mem_masksFor hp).1
    rw [e]
    exact (Layout.proper_of_mem_tokens hl ht').isKey
  unfold Layout.hide look
  rw [hi, hnone]
  rfl

theorem hide_unqueried {t : Token} (ht : t ∈ l.tokens) (hq : t.isQueried = false) :
    ∃ i, l.hide t = referenceMask i ∧ (t.text, referenceMask i) ∈ l.references := by
  obtain ⟨i, hi⟩ := get?_masksFor referenceMask ((mem_references hl).2 ⟨t, ht, hq, rfl⟩)
  refine ⟨i, ?_, Pairs.mem_of_get? hi⟩
  unfold Layout.hide look
  rw [hideQuery_unqueried hl ht hq]
  unfold Layout.references
  rw [hi]
  rfl

theorem isMask_hide {t : Token} (ht : t ∈ l.tokens) : IsMask (l.hide t) := by
  cases hq : t.isQueried with
  | true =>
    obtain ⟨i, hi, _⟩ := hide_queried hl ht hq
    exact hi ▸ isMask_query i
  | false =>
    obtain ⟨i, hi, _⟩ := hide_unqueried hl ht hq
    exact hi ▸ isMask_reference i

end

/-! ## Revealing them -/

theorem Token.not_isMask (t : Token) : ¬ IsMask t.text := fun h =>
  (mem_mask h (c := '{') List.mem_cons_self).2.1 rfl

theorem queryMask_ne_referenceMask (i j : Nat) : queryMask i ≠ referenceMask j := by
  intro e
  have := (List.cons.inj (List.cons.inj (List.cons.inj e).2).2).1
  revert this
  decide

/-- Revealing shows the tokens that were hidden by these masks, and leaves the others. -/
theorem reveal_masksFor {mask : Nat → Text} (hmask : ∀ i, IsMask (mask i))
    (hinj : Function.Injective mask) {keys : List Text} {tokens : List Token}
    {u : (Token → Text) → Text} (hu : Maskable tokens u) {f g : Token → Text}
    (hf : ∀ t ∈ tokens, Marked f t)
    (h : ∀ t ∈ tokens, (t.text, f t) ∈ masksFor mask keys ∧ g t = t.text ∨
      (∀ i, f t ≠ mask i) ∧ g t = f t) :
    (masksFor mask keys).reveal (u f) = u g := by
  have hvalue : ∀ p ∈ unmasked (masksFor mask keys),
      (p.2, p.1) ∈ masksFor mask keys ∧ ∃ i, p.1 = mask i := by
    intro p hp
    obtain ⟨q, hq, rfl⟩ := List.mem_map.1 hp
    exact ⟨hq, (mem_masksFor hq).2⟩
  have hlook : ∀ t ∈ tokens, look (unmasked (masksFor mask keys)) (f t) = g t := by
    intro t ht
    unfold look
    rcases h t ht with ⟨hm, hg⟩ | ⟨hno, hg⟩
    · rw [get?_unmasked hinj hm, hg]
      rfl
    · have hnone : Pairs.get? (f t) (unmasked (masksFor mask keys)) = none := by
        refine Pairs.get?_eq_none.2 fun hk => ?_
        obtain ⟨p, hp, e⟩ := List.mem_map.1 hk
        obtain ⟨i, hi⟩ := (hvalue p hp).2
        exact hno i (e.symm.trans hi)
      rw [hnone, hg]
      rfl
  rw [reveal_eq_fill, fill_masks hu _ (fun p hp => ?_) f hf fun p hp t ht e => ?_]
  · exact hu.congr _ _ hlook
  · obtain ⟨i, hi⟩ := (hvalue p hp).2
    exact hi ▸ hmask i
  · obtain ⟨hm, i, hi⟩ := hvalue p hp
    rcases h t ht with ⟨hm', _⟩ | ⟨hno, _⟩
    · have h1 := get?_unmasked hinj hm
      rw [← e, get?_unmasked hinj hm'] at h1
      exact (Option.some.inj h1).symm
    · exact absurd (e.trans hi) (hno i)

section

variable {l : Layout} (hl : ∀ seg ∈ l, seg.Proper) {tokens : List Token}
  {u : (Token → Text) → Text} (hu : Maskable tokens u) (ht : ∀ t ∈ tokens, t ∈ l.tokens)

include hl hu ht

theorem reveal_references : l.references.reveal (u l.hide) = u l.hideQuery := by
  refine reveal_masksFor isMask_reference (maskOf_injective referenceWord) hu
    (fun t hm => Or.inr (isMask_hide hl (ht t hm))) fun t hm => ?_
  cases hq : t.isQueried with
  | true =>
    obtain ⟨i, hi, hi'⟩ := hide_queried hl (ht t hm) hq
    rw [hi, hi']
    exact Or.inr ⟨queryMask_ne_referenceMask i, rfl⟩
  | false =>
    obtain ⟨i, hi, hmem⟩ := hide_unqueried hl (ht t hm) hq
    rw [hi]
    exact Or.inl ⟨hmem, hideQuery_unqueried hl (ht t hm) hq⟩

theorem reveal_queries : l.queries.reveal (u l.hideQuery) = u Token.text := by
  refine reveal_masksFor isMask_query (maskOf_injective queryWord) hu (fun t hm => ?_) fun t hm => ?_
  · cases hq : t.isQueried with
    | true =>
      obtain ⟨i, hi, _⟩ := hideQuery_queried hl (ht t hm) hq
      exact Or.inr (hi ▸ isMask_query i)
    | false => exact Or.inl (hideQuery_unqueried hl (ht t hm) hq)
  · cases hq : t.isQueried with
    | true =>
      obtain ⟨i, hi, hmem⟩ := hideQuery_queried hl (ht t hm) hq
      rw [hi]
      exact Or.inl ⟨hmem, rfl⟩
    | false =>
      rw [hideQuery_unqueried hl (ht t hm) hq]
      exact Or.inr ⟨fun i e => t.not_isMask (e ▸ isMask_query i), rfl⟩

/-- A hidden text is shown as it is written; the flag says whether it looks different while its
queries are hidden. -/
theorem revealed_eq : revealed l.queries l.references (u l.hide) =
    (u Token.text, u Token.text != u l.hideQuery) := by
  unfold revealed
  simp only [reveal_references hl hu ht, reveal_queries hl hu ht]

end

section

variable {l : Layout} (hl : ∀ seg ∈ l, seg.Proper)

include hl

theorem revealed_chain {c : Chain} (hc : .chain c ∈ l) :
    revealed l.queries l.references (c.expression l.hide) =
      (c.expression Token.text, c.isQueried) := by
  have hp : c.Proper := hl _ hc
  have ht : ∀ t ∈ c.tokens, t ∈ l.tokens := fun t ht => Layout.mem_tokens hc ht
  rw [revealed_eq hl hp.maskable ht]
  refine congrArg (Prod.mk _) ?_
  unfold Chain.isQueried
  cases hq : c.tokens.any Token.isQueried with
  | false =>
    rw [List.any_eq_false] at hq
    have : c.expression l.hideQuery = c.expression Token.text :=
      Chain.expression_congr fun t h => hideQuery_unqueried hl (ht t h) (by simpa using hq t h)
    rw [this]
    exact bne_self_eq_false _
  | true =>
    obtain ⟨t, hm, hqt⟩ := List.any_eq_true.1 hq
    rw [bne_iff_ne]
    intro e
    have hmask : ∀ t ∈ c.tokens, t.isQueried = true →
        ∃ x, l.hideQuery t = '_' :: x := by
      intro t h hqt
      obtain ⟨i, hi, _⟩ := hideQuery_queried hl (ht t h) hqt
      exact ⟨_, hi⟩
    refine Chain.write_ne (f := Token.text) (g := l.hideQuery) (fun t h => ?_) ⟨t, hm, ?_⟩ ?_
    · cases hqt : t.isQueried with
      | true =>
        obtain ⟨x, hx⟩ := hmask t h hqt
        exact Or.inr ⟨'{', '_', _, x, rfl, hx, by decide⟩
      | false => exact Or.inl (hideQuery_unqueried hl (ht t h) hqt).symm
    · obtain ⟨x, hx⟩ := hmask t hm hqt
      rw [hx]
      intro h
      exact absurd (List.cons.inj h).1 (by decide)
    · unfold Chain.expression at e
      exact List.append_cancel_left (List.append_cancel_right e)

theorem revealed_token {t : Token} (ht : t ∈ l.tokens) (hq : t.isQueried = false)
    (hu : Unmasked t.inside) :
    revealed l.queries l.references (l.hide t) = (t.text, false) := by
  have := revealed_eq hl (maskable_token hu) (l := l) fun t' h => by
    rw [List.mem_singleton.1 h]
    exact ht
  rw [this, hideQuery_unqueried hl ht hq, bne_self_eq_false]

end

/-! ## What is compiled -/

/-- What a template holds of the layout that it is compiled from. -/
structure Compiled (l : Layout) (m : Modifier) : Prop where
  literal : m.raw = none ∧ m.val = none
  pattern : m.pattern = some l.text
  flags : m.hasReplace.length = m.filters.length
  queried : ∀ s, s ∈ m.replace ↔ ∃ t ∈ l.tokens, t.isQueried = true ∧ s = t.text
  chains : ∀ c, .chain c ∈ l → c.expression Token.text ∈ m.filters
  alone : ∀ t, .token t ∈ l → t.isQueried = false → t.text ∈ m.filters
  flagged : ∀ p ∈ m.filters.zip m.hasReplace,
    (∃ c, .chain c ∈ l ∧ p = (c.expression Token.text, c.isQueried)) ∨
      ∃ t ∈ l.tokens, t.isQueried = false ∧ p = (t.text, false)

/-- A token of a proper layout that is filled along with the references spells no mask. -/
theorem unmasked_inside {l : Layout} (hl : ∀ seg ∈ l, seg.Proper) {t : Token} (ht : t ∈ l.tokens)
    (hq : t.isQueried = false) : Unmasked t.inside := by
  obtain ⟨seg, hs, ht⟩ := List.mem_flatMap.1 ht
  have hp := hl seg hs
  cases seg with
  | literal s => cases ht
  | token t' =>
    rw [List.mem_singleton.1 ht] at hq ⊢
    cases t' with
    | query path => cases hq
    | named name => exact hp.2.inside
  | chain c => exact Chain.Proper.tokens_unmasked hp t ht

theorem contains_write {l : Layout} {f : Token → Text} {g : Chain → Text} {t : Token}
    (h : .token t ∈ l) : contains (f t) (l.write f g) = true := by
  obtain ⟨a, b, rfl⟩ := List.append_of_mem h
  unfold Layout.write
  rw [List.flatMap_append, List.flatMap_cons]
  exact contains_middle _ _ _

section

variable {l : Layout} (hl : ∀ seg ∈ l, seg.Proper)

include hl

/-- An expression of the hidden layout is one of its chains or one of its references. -/
theorem mem_expressions_hide {e : Text}
    (h : e ∈ expressions l.references (l.references.hide (l.queries.hide l.text))) :
    (∃ c, .chain c ∈ l ∧ e = c.expression l.hide) ∨
      ∃ t ∈ l.tokens, t.isQueried = false ∧ e = l.hide t := by
  rcases mem_expressions.1 h with h | ⟨p, hp, _, rfl⟩
  · rw [hide_references hl, readings_expressions hl fun t ht => (isMask_hide hl ht).solid] at h
    obtain ⟨seg, hs, hseg⟩ := List.mem_filterMap.1 h
    cases seg with
    | literal s => cases hseg
    | token t => cases hseg
    | chain c => exact Or.inl ⟨c, hs, (Option.some.inj hseg).symm⟩
  · obtain ⟨t, ht, hq, e⟩ := (mem_references hl).1 (mem_masksFor hp).1
    refine Or.inr ⟨t, ht, hq, ?_⟩
    obtain ⟨i, hi, hmem⟩ := hide_unqueried hl ht hq
    have hnodup : (Pairs.keys l.references).Nodup := by
      unfold Layout.references
      rw [keys_masksFor]
      exact nodup_distinct _
    have h1 := Pairs.get?_of_mem hnodup hmem
    rw [← e, Pairs.get?_of_mem hnodup (show (p.1, p.2) ∈ l.references from hp)] at h1
    rw [hi]
    exact Option.some.inj h1

theorem chain_mem_expressions {c : Chain} (hc : .chain c ∈ l) : c.expression l.hide ∈
    expressions l.references (l.references.hide (l.queries.hide l.text)) := by
  refine mem_expressions.2 (Or.inl ?_)
  rw [hide_references hl, readings_expressions hl fun t ht => (isMask_hide hl ht).solid]
  exact List.mem_filterMap.2 ⟨_, hc, rfl⟩

theorem token_mem_expressions {t : Token} (ht : .token t ∈ l) (hq : t.isQueried = false) :
    l.hide t ∈ expressions l.references (l.references.hide (l.queries.hide l.text)) := by
  have hm := Layout.mem_tokens ht (List.mem_singleton.2 rfl)
  obtain ⟨i, hi, hmem⟩ := hide_unqueried hl hm hq
  refine mem_expressions.2 (Or.inr ⟨_, hmem, ?_, hi⟩)
  rw [hide_references hl, erase_expressions hl fun t ht => (isMask_hide hl ht).solid, ← hi]
  exact contains_write (f := l.hide) ht

/-- No chain is a reserved token. -/
theorem chain_not_reserved {c : Chain} (hc : .chain c ∈ l) (f : Token → Text) :
    reservedTokens.elem (c.expression f) = false := by
  cases hr : reservedTokens.elem (c.expression f) with
  | false => rfl
  | true =>
    obtain ⟨name, hn, e⟩ := reserved_eq (List.elem_iff.1 hr)
    rw [← Token.text_named] at e
    exact absurd e (Chain.Proper.expression_ne_text (hl _ hc) f (t := .named name) hn)

omit hl in
theorem filters_compileTemplate (prepend append : Text) :
    (compileTemplate prepend l.text append).filters = (filtersOf l.queries l.references
        (l.references.hide (l.queries.hide l.text))).map (·.1) ∧
      (compileTemplate prepend l.text append).hasReplace = (filtersOf l.queries l.references
        (l.references.hide (l.queries.hide l.text))).map (·.2) := by
  unfold compileTemplate Layout.references Layout.queries
  dsimp only
  exact ⟨rfl, rfl⟩

/-- **The template of a layout.** -/
theorem compiled_template (prepend append : Text) :
    Compiled l (compileTemplate prepend l.text append) := by
  obtain ⟨hf, hr⟩ := filters_compileTemplate (l := l) prepend append
  refine ⟨⟨rfl, rfl⟩, rfl, ?_, fun s => mem_queries hl, fun c hc => ?_, fun t ht hq => ?_, ?_⟩
  · rw [hf, hr, List.length_map, List.length_map]
  · rw [hf]
    have := filtersOf_complete l.queries (chain_mem_expressions hl hc) ?_
    · rwa [revealed_chain hl hc] at this
    · rw [reveal_references hl (Chain.Proper.maskable (hl _ hc)) fun t ht => Layout.mem_tokens hc ht]
      exact chain_not_reserved hl hc _
  · have hm := Layout.mem_tokens ht (List.mem_singleton.2 rfl)
    have hu := unmasked_inside hl hm hq
    rw [hf]
    have := filtersOf_complete l.queries (token_mem_expressions hl ht hq) ?_
    · rwa [revealed_token hl hm hq hu] at this
    · have hshow := reveal_references hl (maskable_token hu) (l := l) fun t' h => by
        rw [List.mem_singleton.1 h]
        exact hm
      rw [hshow, hideQuery_unqueried hl hm hq]
      cases t with
      | query path => cases hq
      | named name =>
        rw [Token.text_named]
        exact hq
  · intro p hp
    rw [hf, hr, List.zip_map', List.map_id''] at hp
    · obtain ⟨e, he, _, rfl⟩ := mem_filtersOf hp
      rcases mem_expressions_hide hl he with ⟨c, hc, rfl⟩ | ⟨t, ht, hq, rfl⟩
      · exact Or.inl ⟨c, hc, revealed_chain hl hc⟩
      · exact Or.inr ⟨t, ht, hq, revealed_token hl ht hq (unmasked_inside hl ht hq)⟩
    · exact fun _ => rfl

end

end Crosswalk.Template
