import Crosswalk.Proofs.Pairs

/-!
# Merging pairs

    merge a (merge b c) = merge (merge a b) c                                    (merge_assoc)
    get? k (merge m more) = (get? k more).or (get? k m)                           (get?_merge)

for pairs that have no key twice. The order of the keys is part of both sides of the first line.
-/

namespace Crosswalk.Pairs

variable {κ α : Type} [DecidableEq κ] {k l : κ} {v w : α} {a b c m more : Pairs κ α}

/-! ## Keys -/

theorem mem_keys_put : l ∈ keys (put k v m) ↔ l = k ∨ l ∈ keys m := by
  rw [keys_put]
  split
  · next hk => exact ⟨Or.inr, fun h => h.elim (· ▸ hk) id⟩
  · rw [List.mem_append, List.mem_singleton, or_comm]

theorem mem_keys_putNew : l ∈ keys (putNew k v m) ↔ l = k ∨ l ∈ keys m := by
  rw [putNew]
  split
  · next hk =>
    constructor
    · exact Or.inr
    · rintro (rfl | h)
      · exact get?_isSome.1 hk
      · exact h
  · exact mem_keys_put

theorem nodup_keys_put (hm : (keys m).Nodup) : (keys (put k v m)).Nodup := by
  rw [keys_put]
  split
  · exact hm
  · next hk => exact List.nodup_append.2 ⟨hm, List.nodup_singleton k,
      fun x hx y hy e => hk (List.mem_singleton.1 hy ▸ e ▸ hx)⟩

theorem nodup_keys_merge (hm : (keys m).Nodup) : (keys (merge m more)).Nodup := by
  unfold merge
  induction more generalizing m with
  | nil => exact hm
  | cons p more ih => exact ih (nodup_keys_put hm)

theorem mem_keys_merge : l ∈ keys (merge m more) ↔ l ∈ keys m ∨ l ∈ keys more := by
  unfold merge
  induction more generalizing m with
  | nil => exact (or_iff_left List.not_mem_nil).symm
  | cons p more ih =>
    have hkeys : keys (p :: more) = p.1 :: keys more := rfl
    rw [List.foldl_cons, ih, mem_keys_put, hkeys, List.mem_cons, or_assoc, or_left_comm]

/-! ## Values -/

theorem get?_merge (hmore : (keys more).Nodup) :
    get? k (merge m more) = (get? k more).or (get? k m) := by
  unfold merge
  induction more generalizing m with
  | nil => rfl
  | cons p more ih =>
    obtain ⟨l, w⟩ := p
    obtain ⟨hl, htail⟩ := List.nodup_cons.1 hmore
    rw [List.foldl_cons, ih htail, get?_put, get?]
    by_cases e : k = l
    · rw [if_pos e, if_pos e.symm, e, get?_eq_none.2 hl]
      rfl
    · rw [if_neg e, if_neg (Ne.symm e)]

theorem get?_filter {p : κ → Bool} (hk : p k = true) :
    get? k (m.filter fun q => p q.1) = get? k m := by
  induction m with
  | nil => rfl
  | cons q m ih =>
    obtain ⟨l, w⟩ := q
    by_cases e : l = k
    · rw [List.filter_cons_of_pos (by exact e ▸ hk), get?, get?, if_pos e, if_pos e]
    · rw [get?, if_neg e, ← ih, List.filter_cons]
      split
      · rw [get?, if_neg e]
      · rfl

theorem get?_append (m more : Pairs κ α) : get? k (m ++ more) = (get? k m).or (get? k more) := by
  induction m with
  | nil => rfl
  | cons p m ih =>
    rw [List.cons_append, get?, get?, ih]
    split <;> rfl

theorem get?_map {β : Type} (f : α → β) (k : κ) (m : Pairs κ α) :
    get? k (m.map fun p => (p.1, f p.2)) = (get? k m).map f := by
  induction m with
  | nil => rfl
  | cons p m ih =>
    rw [List.map_cons, get?, get?, ih]
    split <;> rfl

/-- Without repeated keys, a value that is passed over has no other one behind it. -/
theorem get?_filter_value (hm : (keys m).Nodup) (p : α → Bool) :
    get? k (m.filter fun q => p q.2) = (get? k m).filter p := by
  induction m with
  | nil => rfl
  | cons q m ih =>
    obtain ⟨l, w⟩ := q
    obtain ⟨hl, hm⟩ := List.nodup_cons.1 hm
    rw [List.filter_cons, get?]
    by_cases e : l = k
    · subst e
      rw [if_pos rfl]
      cases hw : p w
      · rw [if_neg Bool.false_ne_true, ih hm, get?_eq_none.2 hl, Option.filter_some,
          if_neg (hw ▸ Bool.false_ne_true), Option.filter_none]
      · rw [if_pos rfl, get?, if_pos rfl, Option.filter_some, if_pos hw]
    · rw [if_neg e, ← ih hm]
      split
      · rw [get?, if_neg e]
      · rfl

/-- Values that come from their keys. -/
theorem get?_map_key {β : Type} (f : κ → β) (k : κ) (m : Pairs κ α) :
    get? k (m.map fun p => (p.1, f p.1)) = if k ∈ keys m then some (f k) else none := by
  induction m with
  | nil => rfl
  | cons p m ih =>
    have hkeys : keys (p :: m) = p.1 :: keys m := rfl
    rw [List.map_cons, get?, ih, hkeys]
    by_cases hp : p.1 = k
    · simp [hp]
    · simp [hp, Ne.symm hp]

/-! ## Order -/

/-- A key that is there keeps its place, so the order of two writes does not matter. -/
theorem put_comm (hk : k ∈ keys m) (hne : l ≠ k) :
    put l w (put k v m) = put k v (put l w m) := by
  induction m with
  | nil => cases hk
  | cons p m ih =>
    obtain ⟨j, u⟩ := p
    by_cases hj : j = k
    · have hjl : j ≠ l := fun e => hne (e.symm.trans hj)
      rw [put, if_pos hj, put, if_neg hjl, put, if_neg hjl, put, if_pos hj]
    · have hm : k ∈ keys m := (List.mem_cons.1 hk).resolve_left (Ne.symm hj)
      rw [put, if_neg hj, put, put]
      split
      · rw [put, if_neg hj]
      · rw [put, if_neg hj, ih hm]

theorem put_merge (hk : k ∈ keys m) (hmore : k ∉ keys more) :
    put k v (merge m more) = merge (put k v m) more := by
  unfold merge
  induction more generalizing m with
  | nil => rfl
  | cons p more ih =>
    obtain ⟨l, w⟩ := p
    obtain ⟨hl, htail⟩ := not_or.1 (mt List.mem_cons.2 hmore)
    rw [List.foldl_cons, List.foldl_cons, ih (mem_keys_put.2 (.inr hk)) htail,
      put_comm hk (Ne.symm hl)]

theorem put_eq_append (hk : k ∉ keys m) : put k v m = m ++ [(k, v)] := by
  induction m with
  | nil => rfl
  | cons p m ih =>
    obtain ⟨hne, hm⟩ := not_or.1 (mt List.mem_cons.2 hk)
    rw [put, if_neg (Ne.symm hne), ih hm, List.cons_append]

/-- Without repeated keys, every pair stays where it is. -/
theorem ofList_of_nodup (hm : (keys m).Nodup) : ofList m = m := by
  induction m using List.reverseRecOn with
  | nil => rfl
  | append_singleton m p ih =>
    have hkeys : keys (m ++ [p]) = keys m ++ [p.1] := List.map_append
    rw [hkeys] at hm
    obtain ⟨hinit, -, hlast⟩ := List.nodup_append.1 hm
    rw [ofList_concat, ih hinit]
    exact put_eq_append fun h => hlast _ h _ (List.mem_singleton.2 rfl) rfl

theorem merge_put (hb : (keys b).Nodup) : merge a (put k v b) = put k v (merge a b) := by
  induction b generalizing a with
  | nil => rfl
  | cons p b ih =>
    obtain ⟨l, w⟩ := p
    obtain ⟨hl, hb⟩ := List.nodup_cons.1 hb
    rw [put]
    split
    · next e =>
      subst e
      have hput : l ∈ keys (put l w a) := mem_keys_put.2 (.inl rfl)
      exact (congrArg (merge · b) (put_put l w v a)).symm.trans (put_merge hput hl).symm
    · exact ih hb

/-- **Merging** is associative. -/
theorem merge_assoc (hb : (keys b).Nodup) : merge a (merge b c) = merge (merge a b) c := by
  induction c generalizing b with
  | nil => rfl
  | cons p c ih =>
    calc merge a (merge (put p.1 p.2 b) c)
      _ = merge (merge a (put p.1 p.2 b)) c := ih (nodup_keys_put hb)
      _ = merge (put p.1 p.2 (merge a b)) c := by rw [merge_put hb]

/-! ## Some keys -/

theorem filter_put (p : κ → Bool) :
    (put k v m).filter (fun q => p q.1) =
      if p k then put k v (m.filter fun q => p q.1) else m.filter fun q => p q.1 := by
  induction m with
  | nil => cases hk : p k <;> simp [put, hk]
  | cons q m ih =>
    obtain ⟨l, w⟩ := q
    rw [put]
    by_cases e : l = k
    · subst e
      cases hl : p l <;> simp [put, hl]
    · rw [if_neg e, List.filter_cons, List.filter_cons, ih]
      cases hk : p k <;> cases hl : p l <;> simp [put, e]

def without (k : κ) (m : Pairs κ α) : Pairs κ α := m.filter fun p => p.1 ≠ k

theorem without_put_self (v : α) (m : Pairs κ α) : (m.put k v).without k = m.without k := by
  unfold without
  rw [filter_put (fun l => decide (l ≠ k)), if_neg (by simp)]

theorem get?_without (hne : l ≠ k) : get? l (m.without k) = get? l m :=
  get?_filter (p := fun l => decide (l ≠ k)) (decide_eq_true hne)

theorem mem_without {p : κ × α} : p ∈ m.without k ↔ p ∈ m ∧ p.1 ≠ k := by
  unfold without
  rw [List.mem_filter, decide_eq_true_iff]

theorem filter_merge (p : κ → Bool) :
    (merge m more).filter (fun q => p q.1) =
      merge (m.filter fun q => p q.1) (more.filter fun q => p q.1) := by
  unfold merge
  induction more generalizing m with
  | nil => rfl
  | cons q more ih =>
    rw [List.foldl_cons, ih, filter_put, List.filter_cons]
    split
    · rfl
    · rfl

end Crosswalk.Pairs
