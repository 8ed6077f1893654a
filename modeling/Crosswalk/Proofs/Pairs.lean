import Crosswalk.Pairs
import Mathlib.Data.List.Induction
import Mathlib.Data.List.Nodup

/-!
# Looking up pairs

    (keys m).Nodup → (k, v) ∈ m → get? k m = some v                              (get?_of_mem)
    get? k (ofList (xs.map fun x => (x, f x))) = if k ∈ xs then some (f k) else none  (get?_ofList_map)
    get? k (ofList ps) = get? k ps.reverse                                         (get?_ofList)
    get? k m = some v ↔ ∃ a b, m = a ++ (k, v) :: b ∧ k ∉ keys a               (get?_eq_some_iff)
    FirstSeen (distinct ys) ys                                            (firstSeen_distinct)
    (distinctOn f xs).map f = distinct (xs.map f)                             (map_distinctOn)
-/

namespace Crosswalk

/-! ## First occurrences -/

section

variable {α : Type} [BEq α] [LawfulBEq α]

theorem mem_distinct {x : α} {xs : List α} : x ∈ distinct xs ↔ x ∈ xs := by
  induction xs with
  | nil => rfl
  | cons y xs ih =>
    rw [distinct, List.mem_cons, List.mem_cons, List.mem_filter, ih]
    constructor
    · rintro (h | h)
      · exact Or.inl h
      · exact Or.inr h.1
    · rintro (h | h)
      · exact Or.inl h
      · by_cases e : x = y
        · exact Or.inl e
        · exact Or.inr ⟨h, bne_iff_ne.2 e⟩

theorem nodup_distinct (xs : List α) : (distinct xs).Nodup := by
  induction xs with
  | nil => exact List.nodup_nil
  | cons x xs ih =>
    rw [distinct, List.nodup_cons]
    refine ⟨fun h => ?_, ih.filter _⟩
    have := (List.mem_filter.1 h).2
    rw [bne_self_eq_false] at this
    cases this

/-- The items of `ys` without repetitions, in the order in which they are first seen. -/
structure FirstSeen (xs ys : List α) : Prop where
  nodup : xs.Nodup
  mem : ∀ x, x ∈ xs ↔ x ∈ ys
  order : xs.Pairwise fun x x' => ys.idxOf x < ys.idxOf x'

theorem firstSeen_distinct (ys : List α) : FirstSeen (distinct ys) ys where
  nodup := nodup_distinct ys
  mem := fun _ => mem_distinct
  order := by
    induction ys with
    | nil => exact .nil
    | cons y ys ih =>
      have hne : ∀ x ∈ (distinct ys).filter (· != y), y ≠ x := fun x hx =>
        (bne_iff_ne.1 (List.mem_filter.1 hx).2).symm
      refine List.pairwise_cons.2 ⟨fun x hx => ?_, (ih.sublist List.filter_sublist).imp_of_mem ?_⟩
      · rw [List.idxOf_cons_self, List.idxOf_cons_ne _ (hne x hx)]
        omega
      · intro x x' hx hx' h
        rw [List.idxOf_cons_ne _ (hne x hx), List.idxOf_cons_ne _ (hne x' hx')]
        omega

theorem distinct_concat (xs : List α) (x : α) [DecidableEq α] :
    distinct (xs ++ [x]) = if x ∈ xs then distinct xs else distinct xs ++ [x] := by
  induction xs with
  | nil => rfl
  | cons y xs ih =>
    rw [List.cons_append, distinct, ih, distinct]
    by_cases hx : x ∈ xs
    · rw [if_pos hx, if_pos (List.mem_cons_of_mem y hx)]
    · rw [if_neg hx, List.filter_append]
      by_cases e : x = y
      · rw [if_pos (by rw [e]; exact List.mem_cons_self), List.filter_singleton, e, bne_self_eq_false]
        simp
      · rw [if_neg fun h => (List.mem_cons.1 h).elim e hx, List.filter_singleton, bne_iff_ne.2 e]
        rfl

/-- Before the first place of an item stands nothing that is not before its other places. -/
theorem subset_of_append_cons {α : Type} {x : α} {xs xs' ys ys' : List α}
    (h : xs ++ x :: ys = xs' ++ x :: ys') (hx : x ∉ xs) : xs ⊆ xs' := by
  rcases List.append_eq_append_iff.1 h with ⟨u, rfl, _⟩ | ⟨u, rfl, hu⟩
  · exact List.subset_append_left xs u
  · cases u with
    | nil => simp
    | cons y u =>
      obtain ⟨rfl, _⟩ := List.cons.inj hu
      exact absurd (by simp) hx

/-- Without repetitions, the same items stand before the first place of an item. -/
theorem distinct_append_cons {x : α} {xs : List α} (hx : x ∉ xs) (ys : List α) :
    ∃ zs, distinct (xs ++ x :: ys) = distinct xs ++ x :: zs := by
  induction xs with
  | nil => exact ⟨_, rfl⟩
  | cons y xs ih =>
    obtain ⟨zs, h⟩ := ih fun hm => hx (List.mem_cons_of_mem y hm)
    have hne : x ≠ y := fun e => hx (e ▸ List.mem_cons_self)
    refine ⟨zs.filter (· != y), ?_⟩
    rw [List.cons_append, distinct, h, List.filter_append,
      List.filter_cons_of_pos (p := (· != y)) (bne_iff_ne.2 hne)]
    rfl

end

/-! ## First items with each value of a function -/

section

variable {α β : Type} [BEq β] {f : α → β}

theorem map_distinctOn (f : α → β) (xs : List α) :
    (distinctOn f xs).map f = distinct (xs.map f) := by
  induction xs with
  | nil => rfl
  | cons x xs ih =>
    rw [List.map_cons, distinct, ← ih, distinctOn, List.map_cons, List.filter_map]
    rfl

theorem distinctOn_sublist (f : α → β) (xs : List α) : (distinctOn f xs).Sublist xs := by
  induction xs with
  | nil => exact .slnil
  | cons x xs ih => exact (List.filter_sublist.trans ih).cons_cons x

/-- Of the second list stay the items whose values are new. -/
theorem distinctOn_append (xs ys : List α) :
    distinctOn f (xs ++ ys) =
      distinctOn f xs ++ (distinctOn f ys).filter fun y => !(xs.map f).elem (f y) := by
  induction xs with
  | nil => exact (List.filter_eq_self.2 fun _ _ => rfl).symm
  | cons x xs ih =>
    rw [List.cons_append, distinctOn, ih, List.filter_append, List.filter_filter, distinctOn,
      List.cons_append]
    congr 2
    refine List.filter_congr fun y _ => ?_
    rw [List.map_cons, List.elem_cons, bne]
    cases f y == f x <;> rfl

variable [LawfulBEq β]

theorem distinctOn_congr {γ : Type} [BEq γ] [LawfulBEq γ] {g : α → γ}
    (h : ∀ x y, f x = f y ↔ g x = g y) (xs : List α) : distinctOn f xs = distinctOn g xs := by
  induction xs with
  | nil => rfl
  | cons x xs ih =>
    have hne : ∀ y, (f y != f x) = (g y != g x) := fun y => by
      rw [Bool.eq_iff_iff, bne_iff_ne, bne_iff_ne, ne_eq, ne_eq, h]
    rw [distinctOn, distinctOn, ih]
    simp only [hne]

/-- Where no value comes twice, every item stays. -/
theorem distinctOn_of_nodup {xs : List α} (h : (xs.map f).Nodup) : distinctOn f xs = xs := by
  induction xs with
  | nil => rfl
  | cons x xs ih =>
    obtain ⟨hx, hxs⟩ := List.nodup_cons.1 h
    rw [distinctOn, ih hxs, List.filter_eq_self.2]
    intro y hy
    rw [bne_iff_ne]
    intro e
    exact hx (e ▸ List.mem_map_of_mem hy)

theorem distinctOn_distinctOn (xs : List α) : distinctOn f (distinctOn f xs) = distinctOn f xs :=
  distinctOn_of_nodup (by rw [map_distinctOn]; exact nodup_distinct _)

theorem elem_map_distinctOn (xs : List α) (b : β) :
    ((distinctOn f xs).map f).elem b = (xs.map f).elem b := by
  rw [Bool.eq_iff_iff, List.elem_iff, List.elem_iff, map_distinctOn, mem_distinct]

theorem distinctOn_append_left (xs ys : List α) :
    distinctOn f (distinctOn f xs ++ ys) = distinctOn f (xs ++ ys) := by
  simp only [distinctOn_append, distinctOn_distinctOn, elem_map_distinctOn]

theorem distinctOn_append_right (xs ys : List α) :
    distinctOn f (xs ++ distinctOn f ys) = distinctOn f (xs ++ ys) := by
  simp only [distinctOn_append, distinctOn_distinctOn]

end

namespace Pairs

variable {κ α : Type}

section

variable [DecidableEq κ] {k : κ} {v : α} {m : Pairs κ α}

theorem mem_of_get? (h : get? k m = some v) : (k, v) ∈ m := by
  induction m with
  | nil => cases h
  | cons p m ih =>
    obtain ⟨l, w⟩ := p
    rw [get?] at h
    split at h
    · next e =>
      rw [e, Option.some.inj h]
      exact List.mem_cons_self
    · exact List.mem_cons_of_mem _ (ih h)

theorem get?_isSome : (get? k m).isSome = true ↔ k ∈ keys m := by
  induction m with
  | nil => simp [get?, keys]
  | cons p m ih =>
    obtain ⟨l, w⟩ := p
    have hkeys : keys ((l, w) :: m) = l :: keys m := rfl
    rw [get?, hkeys, List.mem_cons]
    split
    · next e => exact ⟨fun _ => Or.inl e.symm, fun _ => rfl⟩
    · next e =>
      rw [ih]
      exact ⟨Or.inr, fun h => h.resolve_left (Ne.symm e)⟩

theorem get?_eq_none : get? k m = none ↔ k ∉ keys m := by
  rw [← get?_isSome]
  cases get? k m <;> simp

/-- Without repeated keys every pair is found. -/
theorem get?_of_mem (hm : (keys m).Nodup) (h : (k, v) ∈ m) : get? k m = some v := by
  induction m with
  | nil => cases h
  | cons p m ih =>
    obtain ⟨l, w⟩ := p
    obtain ⟨hl, hm⟩ := List.nodup_cons.1 hm
    rw [get?]
    rcases List.mem_cons.1 h with e | h
    · rw [(Prod.mk.inj e).1, (Prod.mk.inj e).2, if_pos rfl]
    · have : l ≠ k := fun e => hl (List.mem_map.2 ⟨_, h, e.symm⟩)
      rw [if_neg this]
      exact ih hm h

/-- The first pair with a key is the one that is found. -/
theorem get?_eq_some_iff :
    get? k m = some v ↔ ∃ before after, m = before ++ (k, v) :: after ∧ k ∉ keys before := by
  constructor
  · intro h
    induction m with
    | nil => cases h
    | cons p m ih =>
      obtain ⟨l, w⟩ := p
      rw [get?] at h
      by_cases hl : l = k
      · rw [if_pos hl] at h
        exact ⟨[], m, by rw [hl, Option.some.inj h]; rfl, List.not_mem_nil⟩
      · rw [if_neg hl] at h
        obtain ⟨before, after, hm, hk⟩ := ih h
        refine ⟨(l, w) :: before, after, by rw [hm]; rfl, fun hmem => ?_⟩
        exact (List.mem_cons.1 hmem).elim (Ne.symm hl) hk
  · rintro ⟨before, after, rfl, hk⟩
    induction before with
    | nil => exact if_pos rfl
    | cons p before ih =>
      obtain ⟨hp, hbefore⟩ := not_or.1 (mt List.mem_cons.2 hk)
      rw [List.cons_append, get?, if_neg (Ne.symm hp)]
      exact ih hbefore

theorem get?_merge_map (f : κ → α) (xs : List κ) (m : Pairs κ α) :
    get? k (merge m (xs.map fun x => (x, f x))) = if k ∈ xs then some (f k) else get? k m := by
  unfold merge
  induction xs generalizing m with
  | nil => rfl
  | cons x xs ih =>
    rw [List.map_cons, List.foldl_cons, ih, get?_put]
    by_cases hk : k ∈ xs
    · rw [if_pos hk, if_pos (List.mem_cons_of_mem x hk)]
    · rw [if_neg hk]
      by_cases e : k = x
      · rw [if_pos e, if_pos (e ▸ List.mem_cons_self), e]
      · rw [if_neg e, if_neg fun h => (List.mem_cons.1 h).elim e hk]

/-- Pairs whose values come from their keys. -/
theorem get?_ofList_map (f : κ → α) (xs : List κ) :
    get? k (ofList (xs.map fun x => (x, f x))) = if k ∈ xs then some (f k) else none :=
  get?_merge_map f xs []

theorem ofList_concat (ps : List (κ × α)) (p : κ × α) :
    ofList (ps ++ [p]) = put p.1 p.2 (ofList ps) := List.foldl_concat ..

/-- The last value of a key is the one that stays. -/
theorem get?_ofList (ps : List (κ × α)) : get? k (ofList ps) = get? k ps.reverse := by
  induction ps using List.reverseRecOn with
  | nil => rfl
  | append_singleton ps p ih =>
    rw [ofList_concat, get?_put, ih, List.reverse_concat, get?]
    exact if_congr eq_comm rfl rfl

/-- The last pair with a key is the one that stays. -/
theorem get?_ofList_eq_some_iff {ps : List (κ × α)} : get? k (ofList ps) = some v ↔
    ∃ before after, ps = before ++ (k, v) :: after ∧ k ∉ keys after := by
  have hkeys : ∀ ps : Pairs κ α, k ∈ keys ps.reverse ↔ k ∈ keys ps := fun ps => by
    simp [keys]
  rw [get?_ofList, get?_eq_some_iff]
  constructor
  · rintro ⟨before, after, h, hk⟩
    refine ⟨after.reverse, before.reverse, ?_, mt (hkeys before).1 hk⟩
    rw [← List.reverse_reverse ps, h]
    simp
  · rintro ⟨before, after, rfl, hk⟩
    exact ⟨after.reverse, before.reverse, by simp, mt (hkeys after).1 hk⟩

/-- Keys stand where they came first. -/
theorem keys_ofList [BEq κ] [LawfulBEq κ] (ps : List (κ × α)) :
    keys (ofList ps) = distinct (ps.map (·.1)) := by
  induction ps using List.reverseRecOn with
  | nil => rfl
  | append_singleton ps p ih =>
    rw [ofList_concat, keys_put, ih, List.map_append, List.map_singleton, distinct_concat]
    by_cases hp : p.1 ∈ ps.map (·.1)
    · rw [if_pos hp, if_pos (mem_distinct.2 hp)]
    · rw [if_neg hp, if_neg (mt mem_distinct.1 hp)]

/-- What is put under a key is lost when something else is put there. -/
theorem put_put (k : κ) (v w : α) (m : Pairs κ α) : put k w (put k v m) = put k w m := by
  induction m with
  | nil => exact if_pos rfl
  | cons p m ih =>
    obtain ⟨l, u⟩ := p
    rw [put, put]
    split
    · next e => rw [put, if_pos e]
    · next e => rw [put, if_neg e, ih]

theorem mem_put {p : κ × α} (h : p ∈ put k v m) : p = (k, v) ∨ p ∈ m := by
  induction m with
  | nil => exact Or.inl (List.mem_singleton.1 h)
  | cons q m ih =>
    obtain ⟨l, w⟩ := q
    rw [put] at h
    split at h
    · next e =>
      rcases List.mem_cons.1 h with h | h
      · exact Or.inl (h.trans (by rw [e]))
      · exact Or.inr (List.mem_cons_of_mem _ h)
    · rcases List.mem_cons.1 h with h | h
      · exact Or.inr (h ▸ List.mem_cons_self)
      · exact (ih h).imp_right (List.mem_cons_of_mem _)

theorem mem_merge {p : κ × α} {more : Pairs κ α} (h : p ∈ merge m more) : p ∈ m ∨ p ∈ more := by
  unfold merge at h
  induction more generalizing m with
  | nil => exact Or.inl h
  | cons q more ih =>
    rcases ih h with h | h
    · rcases mem_put h with h | h
      · exact Or.inr (h ▸ List.mem_cons_self)
      · exact Or.inl h
    · exact Or.inr (List.mem_cons_of_mem q h)

theorem mem_ofList {p : κ × α} {ps : List (κ × α)} (h : p ∈ ofList ps) : p ∈ ps :=
  (mem_merge h).resolve_left List.not_mem_nil

end

end Pairs
end Crosswalk
