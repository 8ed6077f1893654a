import Crosswalk.Host.Bundled
import Crosswalk.Proofs.Query.Flatten
import Crosswalk.Query.Backend
import Mathlib.Data.List.Perm.Subperm
import Mathlib.Data.List.TakeWhile

/-!
# Dotted paths lead where their names lead

A dotted path reads a flat document: its own key, else the keys at the positions `0`, `1`, … below
it until one is missing (`Probes`). In a document without empty names it finds what its names lead
to, one after another:

    v.follow path = some w, a scalar     → [w], or [] for null and the empty text
    v.follow path = some (.list items)   → the items before the first list or map, without nulls
    v.follow path = none                 → []                                   (extract_dotted)
-/

namespace Crosswalk

open Text

/-! ## Probing positions -/

namespace Dotted

variable {flat : Pairs Text Value} {path : Text} {i : Nat} {vs ws : List Value}

/-- The scalars at the positions from `i` on below a path, where the first missing one ends the
search. -/
inductive Probes (flat : Pairs Text Value) (path : Text) : Nat → List Value → Prop
  | stop {i : Nat} (h : Pairs.get? (path ++ '.' :: natText i) flat = none) : Probes flat path i []
  | next {i : Nat} {v : Value} {vs : List Value}
      (h : Pairs.get? (path ++ '.' :: natText i) flat = some v)
      (more : Probes flat path (i + 1) vs) : Probes flat path i (v :: vs)

theorem Probes.unique (h : Probes flat path i vs) (h' : Probes flat path i ws) : vs = ws := by
  induction h generalizing ws with
  | stop h =>
    cases h' with
    | stop => rfl
    | next hv => rw [h] at hv; cases hv
  | next h _ ih =>
    cases h' with
    | stop hnone => rw [h] at hnone; cases hnone
    | next hv more =>
      rw [h] at hv
      rw [Option.some.inj hv, ih more]

/-- A flat document has no more positions than keys. -/
theorem exists_missing (flat : Pairs Text Value) (path : Text) :
    ∃ n ≤ flat.length, Pairs.get? (path ++ '.' :: natText n) flat = none := by
  by_contra hall
  have hkeys : ((List.range (flat.length + 1)).map fun n => path ++ '.' :: natText n) ⊆
      Pairs.keys flat := by
    intro key hkey
    obtain ⟨n, hn, rfl⟩ := List.mem_map.1 hkey
    by_contra hmissing
    exact hall ⟨n, Nat.le_of_lt_succ (List.mem_range.1 hn), Pairs.get?_eq_none.2 hmissing⟩
  have hnodup : ((List.range (flat.length + 1)).map fun n => path ++ '.' :: natText n).Nodup :=
    List.nodup_range.map fun m n e =>
      natText_injective (List.cons.inj (List.append_cancel_left e)).2
  have hle := (hnodup.subperm hkeys).length_le
  rw [List.length_map, List.length_range, Pairs.keys, List.length_map] at hle
  omega

/-- Positions up to a bound are enough when one of them is missing. -/
theorem probes_range {n : Nat}
    (h : ∃ m, i ≤ m ∧ m ≤ i + n ∧ Pairs.get? (path ++ '.' :: natText m) flat = none) :
    Probes flat path i ((((List.range' i n).map fun i =>
      Pairs.get? (path ++ '.' :: natText i) flat).takeWhile Option.isSome).filterMap id) := by
  induction n generalizing i with
  | zero =>
    obtain ⟨m, hle, hge, hm⟩ := h
    obtain rfl : m = i := Nat.le_antisymm hge hle
    exact .stop hm
  | succ n ih =>
    rw [List.range'_succ, List.map_cons]
    cases hi : Pairs.get? (path ++ '.' :: natText i) flat with
    | none => exact .stop hi
    | some v =>
      refine .next hi (ih ?_)
      obtain ⟨m, hle, hge, hm⟩ := h
      have hne : i ≠ m := by
        rintro rfl
        rw [hi] at hm
        cases hm
      exact ⟨m, by omega, by omega, hm⟩

/-- **The search** below a path ends, with the scalars that are listed. -/
theorem probes_listed (flat : Pairs Text Value) (path : Text) :
    Probes flat path 0 (listed flat path) := by
  obtain ⟨n, hn, hmissing⟩ := exists_missing flat path
  unfold listed
  rw [List.range_eq_range']
  exact probes_range ⟨n, n.zero_le, by omega, hmissing⟩

end Dotted

namespace Value

/-! ## Positions in a document -/

variable {v w : Value} {path : List Text}

theorem get?_position (hv : v.Keyed) (hn : v.Named (· ≠ [])) (hp : path ≠ []) (i : Nat) :
    Pairs.get? (pathKey path ++ '.' :: natText i) v.flatten =
      ((v.follow path).bind fun w => Pairs.get? (natText i) w.parts).filter isScalar := by
  have hplain : escapeKey (natText i) = natText i := escapeKey_of_plain fun c hc => by
    have := isDigit_natText hc
    constructor <;> rintro rfl <;> exact absurd this (by decide)
  have hkey : pathKey path ++ '.' :: natText i = pathKey (path ++ [natText i]) := by
    rw [pathKey_append_singleton hp, hplain]
  rw [hkey, get?_flatten hv hn (by simp), follow_append]
  exact congrArg (Option.filter isScalar) (congrArg _ (funext (follow_singleton _)))

/-- The scalars before the first list or map among the items are found. -/
theorem probes_list (hv : v.Keyed) (hn : v.Named (· ≠ [])) (hp : path ≠ []) {items : List Value}
    (h : v.follow path = some (.list items)) :
    Dotted.Probes v.flatten (pathKey path) 0 (items.takeWhile isScalar) := by
  have hposition : ∀ i, Pairs.get? (pathKey path ++ '.' :: natText i) v.flatten =
      items[i]?.filter isScalar := fun i => by
    rw [get?_position hv hn hp, h]
    exact congrArg (Option.filter isScalar) (get?_positioned i items)
  -- The items before position `i` are found already.
  have hrest : ∀ (rest : List Value) (i : Nat), items.drop i = rest →
      Dotted.Probes v.flatten (pathKey path) i (rest.takeWhile isScalar) := by
    intro rest
    induction rest with
    | nil =>
      intro i hdrop
      refine .stop ?_
      rw [hposition, List.getElem?_eq_none (List.drop_eq_nil_iff.1 hdrop)]
      rfl
    | cons w rest ih =>
      intro i hdrop
      have hget : items[i]? = some w := by
        rw [← List.head?_drop, hdrop]
        rfl
      have hmore : items.drop (i + 1) = rest := by
        rw [← List.tail_drop, hdrop]
        rfl
      rw [List.takeWhile_cons]
      split
      · next hw => exact .next (by rw [hposition, hget, Option.filter_some, if_pos hw]) (ih _ hmore)
      · next hw => exact .stop (by rw [hposition, hget, Option.filter_some, if_neg hw])
  exact hrest items 0 rfl

/-- Below a path that leads nowhere or to a scalar no position is found. -/
theorem probes_nothing (hv : v.Keyed) (hn : v.Named (· ≠ [])) (hp : path ≠ [])
    (h : v.follow path = none) : Dotted.Probes v.flatten (pathKey path) 0 [] :=
  .stop (by rw [get?_position hv hn hp, h]; rfl)

end Value

/-! ## Reading a path -/

namespace Dotted

variable {v w : Value} {path : List Text}

/-- The name before the point of the mark for columns. -/
def columnName : Text := "fields[]"

/-- Only a path that starts with the name for columns asks for a column. -/
theorem after?_columnMark (hp : path ≠ []) (hfirst : path.head? ≠ some columnName) :
    after? columnMark (pathKey path) = none := by
  cases h : after? columnMark (pathKey path) with
  | none => rfl
  | some rest =>
    have hhead : path.head? = some columnName := head?_of_after? hp h
    exact absurd hhead hfirst

theorem lookup_of_scalar {d : Dotted} {key : Text} (h : Pairs.get? key d.flat = some w) :
    d.lookup key = if w == .str [] then [] else [w] := by
  unfold lookup
  rw [h]

/-- A path that is no key lists the positions below it. -/
theorem lookup_of_missing {columns : Columns} (hp : path ≠ [])
    (hfirst : path.head? ≠ some columnName)
    (h : Pairs.get? (pathKey path) v.flatten = none) {found : List Value}
    (hfound : Probes v.flatten (pathKey path) 0 found) :
    (Dotted.ofDocument v columns).lookup (pathKey path) = found := by
  unfold lookup ofDocument
  simp only [h, after?_columnMark hp hfirst]
  exact (probes_listed _ _).unique hfound

end Dotted

namespace Backend

open Dotted

variable {v w : Value} {path : List Text}

/-- What is found, without nulls. The empty path finds nothing. -/
theorem extract_key [Host] {d : Dotted} {key : Text} (h : key ≠ []) (context : Option Found) :
    (Backend.dotted d).extract key context =
      ((d.lookup key).filter fun v => !v.isNull).map .value := by
  unfold extract
  rw [if_neg h]
  show (d.query key).map Found.value = _
  rw [query, if_neg h]

/-- Only the path of the empty name has the empty key, and it leads nowhere. -/
theorem pathKey_ne_nil (hn : v.Named (· ≠ [])) (hp : path ≠ []) (h : v.follow path = some w) :
    pathKey path ≠ [] := by
  intro e
  obtain rfl := (pathKey_eq_nil.1 e).resolve_left hp
  rw [Value.follow_singleton] at h
  exact hn.of_part Value.natText_ne_nil (Pairs.mem_of_get? h) rfl

theorem extract_scalar [Host] (hv : v.Keyed) (hn : v.Named (· ≠ [])) (hp : path ≠ [])
    (h : v.follow path = some w) (hw : w.isScalar = true) (columns : Columns)
    (context : Option Found) :
    (Backend.dotted (.ofDocument v columns)).extract (pathKey path) context =
      ((if w == .str [] then [] else [w]).filter fun v => !v.isNull).map .value := by
  have hget : Pairs.get? (pathKey path) v.flatten = some w := by
    rw [Value.get?_flatten hv hn hp, h, Option.filter_some, if_pos hw]
  rw [extract_key (pathKey_ne_nil hn hp h), lookup_of_scalar hget]

/-- A path to a list or to nowhere reads what the search below it finds. -/
theorem extract_found [Host] (hv : v.Keyed) (hn : v.Named (· ≠ [])) (hp : path ≠ [])
    (hfirst : path.head? ≠ some columnName) (h : ∀ w, v.follow path = some w → w.isScalar = false)
    {found : List Value} (hfound : Probes v.flatten (pathKey path) 0 found) (columns : Columns)
    (context : Option Found) :
    (Backend.dotted (.ofDocument v columns)).extract (pathKey path) context =
      if pathKey path = [] then [] else (found.filter fun v => !v.isNull).map .value := by
  have hget : Pairs.get? (pathKey path) v.flatten = none := by
    rw [Value.get?_flatten hv hn hp, Option.filter_eq_none_iff]
    intro w hw
    rw [h w hw]
    exact Bool.false_ne_true
  split
  · next hkey =>
    unfold extract
    rw [if_pos hkey]
  · next hkey => rw [extract_key hkey, lookup_of_missing hp hfirst hget hfound]

/-- **A dotted path** reads what its names lead to, and the search below it ends. -/
theorem extract_dotted [Host] (hv : v.Keyed) (hn : v.Named (· ≠ [])) (hp : path ≠ [])
    (hfirst : path.head? ≠ some columnName) (columns : Columns) (context : Option Found) :
    ∃ b, Backend.ofDocument .jsdot (.data v) columns = .ok b ∧
      Probes v.flatten (pathKey path) 0 (listed v.flatten (pathKey path)) ∧
      (∀ w, v.follow path = some w → w.isScalar = true → w ≠ .null → w ≠ .str [] →
        b.extract (pathKey path) context = [.value w]) ∧
      (∀ items, v.follow path = some (.list items) → (∀ w ∈ items, w.isScalar = true) →
        b.extract (pathKey path) context = (items.filter fun w => !w.isNull).map .value) ∧
      (v.follow path = none ∨ v.follow path = some .null ∨ v.follow path = some (.str []) →
        b.extract (pathKey path) context = []) := by
  refine ⟨.dotted (.ofDocument v columns), rfl, probes_listed _ _, ?scalar, ?items, ?nothing⟩
  case scalar =>
    intro w h hw hnull hempty
    have hbeq : (w == .str []) = false := by
      cases w with
      | str s =>
        cases s with
        | nil => exact absurd rfl hempty
        | cons c s => rfl
      | _ => rfl
    have hnull' : w.isNull = false := by
      cases w with
      | null => exact absurd rfl hnull
      | _ => rfl
    rw [extract_scalar hv hn hp h hw, hbeq]
    simp [hnull']
  case items =>
    intro items h hitems
    have hlist : ∀ w, v.follow path = some w → w.isScalar = false := fun w hw => by
      rw [h] at hw
      rw [← Option.some.inj hw]
      rfl
    rw [extract_found hv hn hp hfirst hlist (Value.probes_list hv hn hp h),
      if_neg (pathKey_ne_nil hn hp h), List.takeWhile_eq_self_iff.2 hitems]
  case nothing =>
    rintro (h | h | h)
    · have hnothing : ∀ w, v.follow path = some w → w.isScalar = false := fun w hw => by
        rw [h] at hw
        cases hw
      rw [extract_found hv hn hp hfirst hnothing (Value.probes_nothing hv hn hp h)]
      exact ite_self []
    · rw [extract_scalar hv hn hp h rfl]
      rfl
    · rw [extract_scalar hv hn hp h rfl]
      rfl

/-- A document with a list below a name that holds a point. -/
def shelf : Value :=
  .map [("a.b", .list [.str "x", .null, .str "", .int 1]), ("a", .map [("b", .str "y")])]

theorem extract_dotted_shelf : shelf.Keyed ∧ shelf.Named (· ≠ []) ∧
    shelf.follow ["a.b"] = some (.list [.str "x", .null, .str "", .int 1]) ∧
    ∃ b, Backend.ofDocument .jsdot (.data shelf) .none = .ok b ∧
      b.extract "a\\.b" none = [.value (.str "x"), .value (.str ""), .value (.int 1)] := by
  have hv : shelf.Keyed := by decide
  have hn : shelf.Named (· ≠ []) := by decide
  have hfollow : shelf.follow ["a.b"] = some (.list [.str "x", .null, .str "", .int 1]) := rfl
  have hp : (["a.b"] : List Text) ≠ [] := List.cons_ne_nil _ _
  obtain ⟨b, hb, -, -, hitems, -⟩ := extract_dotted hv hn hp (by decide) .none none
  exact ⟨hv, hn, hfollow, b, hb, hitems _ hfollow (by simp [Value.isScalar])⟩

end Backend
end Crosswalk
