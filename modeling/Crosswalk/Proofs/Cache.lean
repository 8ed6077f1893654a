import Crosswalk.Cache
import Crosswalk.Proofs.Pairs
import Mathlib.Data.List.Dedup
import Mathlib.Data.List.DropRight

/-!
# What a cache keeps

A cache is told by the history of what was done with it. A use of a key is a set, or a get that
finds the key; a membership test is none, and clearing forgets all uses. After any acts on a new
cache

    (run capacity acts).keys = recent capacity (uses capacity acts)                   (run_recent)

where `recent n` are the last `n` distinct keys in the order of their last use, and under each key
stands what was set for it last.

What carries the proof is the relation `Tracks` between a cache and a history, which every act keeps
(`Tracks.act`).
-/

namespace Crosswalk

/-! ## Last places -/

section

variable {κ : Type} {k : κ} {n : Nat} {xs ys : List κ}

theorem rtake_of_length_le (h : xs.length ≤ n) : xs.rtake n = xs := by
  rw [List.rtake, Nat.sub_eq_zero_of_le h, List.drop_zero]

theorem rtake_append_of_le (h : n ≤ ys.length) : (xs ++ ys).rtake n = ys.rtake n := by
  have hlen : (xs ++ ys).length - n = xs.length + (ys.length - n) := by
    rw [List.length_append]
    omega
  rw [List.rtake, hlen, List.drop_length_add_append, List.rtake]

variable [BEq κ] [LawfulBEq κ]

/-- Of items without repetitions one is left out. -/
theorem length_filter_ne (h : xs.Nodup) (hk : k ∈ xs) :
    (xs.filter (· != k)).length + 1 = xs.length := by
  have hpos := List.length_pos_of_mem hk
  rw [← h.erase_eq_filter, List.length_erase_of_mem hk]
  omega

/-- What a new last item pushes out is the same before and after the cut. -/
theorem rtake_filter_concat (h : xs.Nodup) :
    ((xs.rtake n).filter (· != k) ++ [k]).rtake n = (xs.filter (· != k) ++ [k]).rtake n := by
  cases n with
  | zero => rw [List.rtake_zero, List.rtake_zero]
  | succ n =>
    rw [List.rtake_concat_succ, List.rtake_concat_succ]
    by_cases hn : xs.length ≤ n + 1
    · rw [rtake_of_length_le hn]
    · have hsplit : xs.take (xs.length - (n + 1)) ++ xs.rtake (n + 1) = xs :=
        List.take_append_drop _ xs
      have hlast : (xs.rtake (n + 1)).length = n + 1 := by
        rw [List.rtake, List.length_drop]
        omega
      have hnodup : (xs.rtake (n + 1)).Nodup := h.sublist (List.drop_sublist _ xs)
      -- At most one of the last items goes, so `n` of them stay.
      have hle : n ≤ ((xs.rtake (n + 1)).filter (· != k)).length := by
        by_cases hk : k ∈ xs.rtake (n + 1)
        · have := length_filter_ne hnodup hk
          omega
        · have hself : (xs.rtake (n + 1)).filter (· != k) = xs.rtake (n + 1) := by
            apply List.filter_eq_self.2
            intro x hx
            rw [bne_iff_ne]
            rintro rfl
            exact hk hx
          rw [hself]
          omega
      conv => rhs; rw [← hsplit, List.filter_append, rtake_append_of_le hle]

/-- One more item at the end takes the place of the earlier ones that are equal to it. -/
theorem dedup_concat [DecidableEq κ] (xs : List κ) (k : κ) :
    (xs ++ [k]).dedup = xs.dedup.filter (· != k) ++ [k] := by
  induction xs with
  | nil => simp
  | cons x xs ih =>
    by_cases hx : x ∈ xs
    · rw [List.cons_append, List.dedup_cons_of_mem (List.mem_append_left [k] hx), ih,
        List.dedup_cons_of_mem hx]
    · rw [List.dedup_cons_of_notMem hx]
      by_cases hk : x = k
      · have hmem : x ∈ xs ++ [k] := by simp [hk]
        rw [List.cons_append, List.dedup_cons_of_mem hmem, ih]
        simp [hk]
      · have hmem : x ∉ xs ++ [k] := by simp [hx, hk]
        rw [List.cons_append, List.dedup_cons_of_notMem hmem, ih]
        simp [hk]

end

namespace Cache

/-! ## Entries -/

section

variable {α : Type} {k : Text} {v : α} {c : Cache α} {p : Text × α}

theorem mem_use {entries : Pairs Text α} :
    p ∈ use k v entries ↔ p = (k, v) ∨ p ∈ entries ∧ p.1 ≠ k := by
  rw [use, List.mem_append, List.mem_filter, List.mem_singleton, bne_iff_ne]
  exact or_comm

theorem mem_set (h : p ∈ (c.set k v).entries) : p = (k, v) ∨ p ∈ c.entries ∧ p.1 ≠ k :=
  mem_use.1 (List.mem_of_mem_drop h)

theorem fst_get (k : Text) (c : Cache α) : (c.get k).1 = Pairs.get? k c.entries := by
  unfold get
  split
  · next h => exact h.symm
  · next h => exact h.symm

/-- A key that is not there changes nothing. -/
theorem get_of_none (h : (c.get k).1 = none) : (c.get k).2 = c := by
  rw [fst_get] at h
  rw [get, h]

/-- A key that is there becomes the one that was used last. -/
theorem get_of_some (h : (c.get k).1 = some v) :
    (c.get k).2 = { c with entries := use k v c.entries } := by
  rw [fst_get] at h
  rw [get, h]

theorem mem_of_get (h : (c.get k).1 = some v) : (k, v) ∈ c.entries :=
  Pairs.mem_of_get? ((fst_get k c).symm.trans h)

theorem mem_get (h : p ∈ (c.get k).2.entries) : p ∈ c.entries := by
  cases hv : (c.get k).1 with
  | none => rwa [get_of_none hv] at h
  | some v =>
    rw [get_of_some hv] at h
    rcases mem_use.1 h with rfl | h
    · exact mem_of_get hv
    · exact h.1

theorem keys_use (k : Text) (v : α) (entries : Pairs Text α) :
    Pairs.keys (use k v entries) = (Pairs.keys entries).filter (· != k) ++ [k] := by
  unfold use Pairs.keys
  rw [List.map_append, List.filter_map]
  rfl

theorem keys_set (k : Text) (v : α) (c : Cache α) :
    (c.set k v).keys = (c.keys.filter (· != k) ++ [k]).rtake c.capacity := by
  have hkeys : (use k v c.entries).map (·.1) = c.keys.filter (· != k) ++ [k] :=
    keys_use k v c.entries
  rw [← hkeys, List.rtake, List.length_map, ← List.map_drop]
  rfl

theorem mem_keys_iff : k ∈ c.keys ↔ (c.get k).1.isSome = true := by
  rw [fst_get]
  exact Pairs.get?_isSome.symm

end

/-! ## Histories -/

/-- What is done with a cache. -/
inductive Act (α : Type) where
  | set (k : Text) (v : α)
  | get (k : Text)
  | has (k : Text)
  | clear

variable {α : Type}

/-- The cache after an act. -/
def act (c : Cache α) : Act α → Cache α
  | .set k v => c.set k v
  | .get k => (c.get k).2
  | .has _ => c
  | .clear => c.clear

/-- A new cache after some acts. -/
def run (capacity : Nat) (acts : List (Act α)) : Cache α := acts.foldl act (empty capacity)

/-- The last `n` distinct keys, in the order of their last use. -/
def recent (n : Nat) (uses : List Text) : List Text := uses.dedup.rtake n

/-- The uses after one more act, where a get finds the last `n` distinct keys alone. -/
def note (n : Nat) (uses : List Text) : Act α → List Text
  | .set k _ => uses ++ [k]
  | .get k => if (recent n uses).contains k then uses ++ [k] else uses
  | .has _ => uses
  | .clear => []

/-- The keys that were used since the last clearing, in order. -/
def uses (n : Nat) (acts : List (Act α)) : List Text := acts.foldl (note n) []

def Act.setOf? (k : Text) : Act α → Option α
  | .set l v => if l = k then some v else none
  | _ => none

/-- What was set last for a key. -/
def lastSet? (k : Text) (acts : List (Act α)) : Option α := acts.reverse.findSome? (Act.setOf? k)

/-- A cache keeps the last keys that were used, each with what was set for it last. -/
structure Tracks (c : Cache α) (uses : List Text) (acts : List (Act α)) : Prop where
  keys : c.keys = recent c.capacity uses
  last : ∀ p ∈ c.entries, lastSet? p.1 acts = some p.2

/-! ## Lemmas -/

variable {k : Text} {v : α} {n : Nat} {c : Cache α} {a : Act α} {acts : List (Act α)}
  {used : List Text}

theorem lastSet?_concat (k : Text) (acts : List (Act α)) (a : Act α) :
    lastSet? k (acts ++ [a]) = (a.setOf? k).or (lastSet? k acts) := by
  unfold lastSet?
  rw [List.reverse_append, List.reverse_singleton, List.singleton_append, List.findSome?_cons]
  cases a.setOf? k <;> rfl

theorem nodup_recent (n : Nat) (used : List Text) : (recent n used).Nodup :=
  (List.nodup_dedup used).sublist (List.drop_sublist _ _)

theorem length_recent_le (n : Nat) (used : List Text) : (recent n used).length ≤ n := by
  rw [recent, List.rtake, List.length_drop]
  omega

theorem recent_concat (n : Nat) (used : List Text) (k : Text) :
    recent n (used ++ [k]) = ((recent n used).filter (· != k) ++ [k]).rtake n := by
  unfold recent
  rw [dedup_concat, rtake_filter_concat (List.nodup_dedup used)]

/-- A key that is there only moves to the end. -/
theorem recent_concat_of_mem (h : k ∈ recent n used) :
    recent n (used ++ [k]) = (recent n used).filter (· != k) ++ [k] := by
  rw [recent_concat]
  apply rtake_of_length_le
  have hlen := length_filter_ne (nodup_recent n used) h
  have hle := length_recent_le n used
  rw [List.length_append, List.length_singleton]
  omega

/-! ## Acts -/

namespace Tracks

theorem empty (capacity : Nat) : Tracks (empty capacity : Cache α) [] [] where
  keys := by
    unfold recent
    rw [List.dedup_nil, List.rtake_nil]
    rfl
  last := by
    intro p hp
    cases hp

variable (h : Tracks c used acts)
include h

theorem isSome_get_iff (k : Text) :
    (c.get k).1.isSome = true ↔ k ∈ recent c.capacity used := by
  rw [← mem_keys_iff, h.keys]

/-- A get finds the keys that were used last, with what was set for them. -/
theorem fst_get (k : Text) :
    (c.get k).1 = if k ∈ recent c.capacity used then lastSet? k acts else none := by
  have hsome := h.isSome_get_iff k
  cases hv : (c.get k).1 with
  | none =>
    rw [hv] at hsome
    rw [if_neg (mt hsome.2 Bool.false_ne_true)]
  | some v =>
    rw [hv] at hsome
    rw [if_pos (hsome.1 rfl), h.last _ (mem_of_get hv)]

theorem set (k : Text) (v : α) : Tracks (c.set k v) (used ++ [k]) (acts ++ [.set k v]) where
  keys := by
    rw [keys_set, h.keys, capacity_set, recent_concat]
  last := by
    intro p hp
    rw [lastSet?_concat]
    rcases mem_set hp with rfl | ⟨hp, hne⟩
    · rw [Act.setOf?, if_pos rfl]
      rfl
    · rw [Act.setOf?, if_neg hne.symm, Option.none_or]
      exact h.last p hp

theorem get (k : Text) :
    Tracks (c.get k).2 (note c.capacity used (.get k : Act α)) (acts ++ [.get k]) where
  keys := by
    have hsome := h.isSome_get_iff k
    rw [capacity_get]
    cases hv : (c.get k).1 with
    | none =>
      rw [hv] at hsome
      have hk : ¬ (recent c.capacity used).contains k = true := by
        rw [List.contains_iff_mem]
        exact mt hsome.2 Bool.false_ne_true
      rw [get_of_none hv, note, if_neg hk, h.keys]
    | some v =>
      rw [hv] at hsome
      have hk := hsome.1 rfl
      rw [get_of_some hv, note, if_pos (List.contains_iff_mem.2 hk), recent_concat_of_mem hk,
        ← h.keys]
      exact keys_use k v c.entries
  last := by
    intro p hp
    rw [lastSet?_concat]
    exact h.last p (mem_get hp)

/-- Every act keeps the relation. -/
theorem act (a : Act α) : Tracks (c.act a) (note c.capacity used a) (acts ++ [a]) := by
  cases a with
  | set k v => exact h.set k v
  | get k => exact h.get k
  | has k =>
    refine ⟨h.keys, ?_⟩
    intro p hp
    rw [lastSet?_concat]
    exact h.last p hp
  | clear =>
    refine ⟨(Tracks.empty c.capacity (α := α)).keys, ?_⟩
    intro p hp
    cases hp

end Tracks

@[simp] theorem capacity_act (c : Cache α) (a : Act α) : (c.act a).capacity = c.capacity := by
  cases a with
  | set k v => rfl
  | get k => exact capacity_get k c
  | has k => rfl
  | clear => rfl

theorem run_concat (capacity : Nat) (acts : List (Act α)) (a : Act α) :
    run capacity (acts ++ [a]) = (run capacity acts).act a := by
  rw [run, List.foldl_concat]
  rfl

theorem uses_concat (capacity : Nat) (acts : List (Act α)) (a : Act α) :
    uses capacity (acts ++ [a]) = note capacity (uses capacity acts) a := by
  rw [uses, List.foldl_concat]
  rfl

theorem capacity_run (capacity : Nat) (acts : List (Act α)) :
    (run capacity acts).capacity = capacity := by
  induction acts using List.reverseRecOn with
  | nil => rfl
  | append_singleton acts a ih => rw [run_concat, capacity_act, ih]

/-- Every run tracks its history. -/
theorem tracks_run (capacity : Nat) (acts : List (Act α)) :
    Tracks (run capacity acts) (uses capacity acts) acts := by
  induction acts using List.reverseRecOn with
  | nil => exact Tracks.empty capacity
  | append_singleton acts a ih =>
    have hstep := ih.act a
    rw [capacity_run] at hstep
    rw [run_concat, uses_concat]
    exact hstep

/-- **What was used last is kept.** After any acts on a new cache the keys are the last distinct
ones that were used, oldest first, as many as the capacity allows; each stands for what was set for
it last, and these are the keys that a get or a membership test finds. -/
theorem run_recent (capacity : Nat) (acts : List (Act α)) :
    (run capacity acts).keys = recent capacity (uses capacity acts) ∧
    (∀ p ∈ (run capacity acts).entries, lastSet? p.1 acts = some p.2) ∧
    (run capacity acts).size ≤ capacity ∧
    ∀ k, ((run capacity acts).get k).1 =
        (if k ∈ recent capacity (uses capacity acts) then lastSet? k acts else none) ∧
      ((run capacity acts).has k = true ↔ k ∈ recent capacity (uses capacity acts)) := by
  have htracks := tracks_run capacity acts
  have hkeys := htracks.keys
  rw [capacity_run] at hkeys
  refine ⟨hkeys, htracks.last, ?_, ?_⟩
  · have hle := length_recent_le capacity (uses capacity acts)
    rw [← hkeys] at hle
    simpa [size, keys, Pairs.keys] using hle
  · intro k
    have hget := htracks.fst_get k
    have hhas := htracks.isSome_get_iff k
    rw [capacity_run] at hget hhas
    refine ⟨hget, ?_⟩
    rw [← hhas, fst_get]
    rfl

example : (run 2 [.set "a" 1, .set "b" 2, .get "a", .has "b", .set "c" 3]).keys = ["a", "c"] := by
  decide

end Cache
end Crosswalk
