import Crosswalk.Proofs.Merge
import Crosswalk.Proofs.Query.Leaves

/-!
# Flat documents lose no scalar

Under its key the flat document keeps the last scalar that has it. Two scalars share a key when
their paths differ only in the empty names before the first other one, so every scalar keeps a key
of its own, which is read as its path, unless parts stand below an empty name of the whole document:

    v.Lossless ↔ ∀ w, v.follow [[]] = some w → w.isScalar = true ∨ w.leafPaths = []
                                                                           (flatten_leaves)
-/

namespace Crosswalk.Value

open Text

variable {v w : Value}

/-! ## Keys of scalars -/

theorem flatten_eq (hs : v.isScalar = false) :
    v.flatten = Pairs.ofList (v.leafPaths.map fun l => (flatKey l.1, l.2)) := by
  unfold flatten
  rw [if_neg (by rw [hs]; decide), leaves_eq]
  rfl

theorem keys_leafPaths (v : Value) :
    Pairs.keys (v.leafPaths.map fun l => (flatKey l.1, l.2)) =
      v.leafPaths.map fun l => flatKey l.1 := by
  unfold Pairs.keys
  rw [List.map_map]
  rfl

/-- The scalars stand under keys of their own when their paths differ from the first name on. -/
theorem nodup_flatKeys_iff : (v.leafPaths.map fun l => flatKey l.1).Nodup ↔
    (v.leafPaths.map fun l => fromName l.1).Nodup := by
  rw [List.Nodup, List.Nodup, List.pairwise_map, List.pairwise_map]
  simp only [ne_eq, flatKey_eq_iff]

theorem flatten_eq_iff (hs : v.isScalar = false) :
    v.flatten = v.leafPaths.map (fun l => (flatKey l.1, l.2)) ↔
      (v.leafPaths.map fun l => fromName l.1).Nodup := by
  rw [← nodup_flatKeys_iff, ← keys_leafPaths, flatten_eq hs]
  refine ⟨fun h => ?_, Pairs.ofList_of_nodup⟩
  rw [← h]
  exact Pairs.nodup_keys_merge List.nodup_nil

/-! ## Paths that are read back -/

/-- A scalar below a list or a map has a name before it. -/
theorem path_ne_nil (hv : v.Keyed) (hs : v.isScalar = false) {l : List Text × Value}
    (h : l ∈ v.leafPaths) : l.1 ≠ [] := by
  intro e
  obtain ⟨hfollow, hscalar⟩ := (mem_leafPaths hv).1 h
  rw [e] at hfollow
  rw [← Option.some.inj hfollow, hs] at hscalar
  cases hscalar

/-- A path that starts with an empty name leads through the member that has it. -/
theorem cons_mem_leafPaths (hv : v.Keyed) {path : List Text} {x : Value} :
    ([] :: path, x) ∈ v.leafPaths ↔ ∃ w, v.follow [[]] = some w ∧ (path, x) ∈ w.leafPaths := by
  have hpart : ∀ w, v.follow [[]] = some w → w.Keyed := fun w h => by
    rw [follow_singleton] at h
    exact hv.part (Pairs.mem_of_get? h)
  rw [mem_leafPaths hv, ← List.singleton_append, follow_append, Option.bind_eq_some_iff]
  constructor
  · rintro ⟨⟨w, hw, hfollow⟩, hx⟩
    exact ⟨w, hw, (mem_leafPaths (hpart w hw)).2 ⟨hfollow, hx⟩⟩
  · rintro ⟨w, hw, hmem⟩
    obtain ⟨hfollow, hx⟩ := (mem_leafPaths (hpart w hw)).1 hmem
    exact ⟨⟨w, hw, hfollow⟩, hx⟩

/-- No parts stand below an empty name of the whole document. -/
def Rooted (v : Value) : Prop :=
  ∀ w, v.follow [[]] = some w → w.isScalar = true ∨ w.leafPaths = []

/-- **The keys** of all scalars are read as their paths when no parts stand below an empty name. -/
theorem forall_keyPath_iff (hv : v.Keyed) (hs : v.isScalar = false) :
    (∀ l ∈ v.leafPaths, keyPath (flatKey l.1) = l.1) ↔ v.Rooted := by
  constructor
  · intro h w hw
    by_cases hscalar : w.isScalar = true
    · exact .inl hscalar
    · refine .inr (List.eq_nil_iff_forall_not_mem.2 fun m hm => ?_)
      have hkeyed : w.Keyed := hv.part (Pairs.mem_of_get? (follow_singleton [] v ▸ hw))
      have hread := h _ ((cons_mem_leafPaths hv).2 ⟨w, hw, hm⟩)
      rcases keyPath_flatKey_eq_iff.1 hread with e | ⟨-, hhead⟩
      · exact path_ne_nil hkeyed (Bool.not_eq_true _ ▸ hscalar) hm (List.cons.inj e).2
      · exact hhead rfl
  · intro h l hl
    refine keyPath_flatKey_eq_iff.2 ?_
    obtain ⟨path, x⟩ := l
    cases path with
    | nil => exact absurd rfl (path_ne_nil hv hs hl)
    | cons name path =>
      by_cases hname : name = []
      · subst hname
        obtain ⟨w, hw, hmem⟩ := (cons_mem_leafPaths hv).1 hl
        rcases h w hw with hscalar | hnone
        · rw [leafPaths_of_scalar hscalar, List.mem_singleton] at hmem
          exact .inl (congrArg ([] :: ·) (Prod.mk.inj hmem).1)
        · rw [hnone] at hmem
          cases hmem
      · exact .inr ⟨List.cons_ne_nil _ _, fun e => hname (Option.some.inj e)⟩

/-! ## Flat documents -/

/-- The flat document has one key for each scalar, which is read as the path of the scalar. -/
structure Lossless (v : Value) : Prop where
  entries : v.flatten = v.leafPaths.map fun l => (flatKey l.1, l.2)
  distinct : (Pairs.keys v.flatten).Nodup
  read : ∀ l ∈ v.leafPaths, keyPath (flatKey l.1) = l.1

theorem lossless_iff (hv : v.Keyed) (hs : v.isScalar = false) : v.Lossless ↔ v.Rooted := by
  rw [← forall_keyPath_iff hv hs]
  refine ⟨Lossless.read, fun h => ?_⟩
  have hkeys : (v.leafPaths.map fun l => flatKey l.1).Nodup := by
    rw [List.Nodup, List.pairwise_map]
    refine (List.pairwise_map.1 (nodup_leafPaths hv)).imp_of_mem fun {l m} hl hm hne e => hne ?_
    rw [← h l hl, e, h m hm]
  have hentries := (flatten_eq_iff hs).2 (nodup_flatKeys_iff.1 hkeys)
  refine ⟨hentries, ?_, h⟩
  rw [hentries, keys_leafPaths]
  exact hkeys

/-- A document without empty names is flattened without loss. -/
theorem Named.lossless (hv : v.Keyed) (hs : v.isScalar = false) (hn : v.Named (· ≠ [])) :
    v.Lossless := by
  refine (lossless_iff hv hs).2 fun w hw => ?_
  rw [follow_singleton] at hw
  exact absurd rfl (hn.of_part natText_ne_nil (Pairs.mem_of_get? hw))

/-- No key loses an empty name. -/
theorem flatten_eq_pathKeys (hv : v.Keyed) (hn : v.Named (· ≠ [])) (hs : v.isScalar = false) :
    v.flatten = v.leafPaths.map fun l => (pathKey l.1, l.2) := by
  rw [(hn.lossless hv hs).entries]
  refine List.map_congr_left fun l hl => ?_
  rw [flatKey_of_head fun e => hn.of_path natText_ne_nil hl [] (List.mem_of_head? e) rfl]

/-- Each key gives the scalar that its path leads to. -/
theorem get?_flatten (hv : v.Keyed) (hn : v.Named (· ≠ [])) {path : List Text} (hp : path ≠ []) :
    Pairs.get? (pathKey path) v.flatten = (v.follow path).filter isScalar := by
  by_cases hs : v.isScalar = true
  · obtain ⟨name, path, rfl⟩ := List.exists_cons_of_ne_nil hp
    unfold flatten
    rw [if_pos hs, follow, parts_of_scalar hs]
    rfl
  · have hs := Bool.not_eq_true _ ▸ hs
    ext w
    rw [Option.filter_eq_some_iff, ← mem_leafPaths hv]
    constructor
    · intro h
      have hmem := Pairs.mem_of_get? h
      rw [flatten_eq_pathKeys hv hn hs] at hmem
      obtain ⟨l, hl, e⟩ := List.mem_map.1 hmem
      obtain ⟨hkey, rfl⟩ := Prod.mk.inj e
      rwa [← pathKey_injective (path_ne_nil hv hs hl) hp hkey]
    · intro h
      refine Pairs.get?_of_mem (hn.lossless hv hs).distinct ?_
      rw [flatten_eq_pathKeys hv hn hs]
      exact List.mem_map.2 ⟨_, h, rfl⟩

/-! ## Top theorem -/

/-- **A flat document** keeps the scalars under the keys of their paths. It has one key for each of
them exactly when no two paths are equal from their first name on, and these keys are also read as
the paths exactly when no parts stand below an empty name of the whole document. -/
theorem flatten_leaves (hv : v.Keyed) (hs : v.isScalar = false) :
    v.flatten = Pairs.ofList (v.leafPaths.map fun l => (flatKey l.1, l.2)) ∧
      (v.flatten = v.leafPaths.map (fun l => (flatKey l.1, l.2)) ↔
        (v.leafPaths.map fun l => fromName l.1).Nodup) ∧
      (v.Lossless ↔ ∀ w, v.follow [[]] = some w → w.isScalar = true ∨ w.leafPaths = []) :=
  ⟨flatten_eq hs, flatten_eq_iff hs, lossless_iff hv hs⟩

/-- A document with a point and a backslash in names, an empty name below another one and an empty
name of the whole document that holds a scalar. -/
def video : Value :=
  .map [("video", .map [("data.format", .str "jpg"), ("a\\", .list [.null, .int 1]),
    ("", .bool true)]), ("", .str "x")]

theorem flatten_leaves_video : video.Keyed ∧ video.isScalar = false ∧ video.Lossless ∧
    Pairs.keys video.flatten = [("video.data\\.format" : Text), ("video.a\\\\.0" : Text),
      ("video.a\\\\.1" : Text), ("video." : Text), []] := by
  have hkeyed : video.Keyed := by decide
  refine ⟨hkeyed, rfl, ((flatten_leaves hkeyed rfl).2.2).2 fun w hw => ?_, by decide⟩
  have hw' : some (Value.str "x") = some w := hw
  rw [← Option.some.inj hw']
  exact .inl rfl

/-- A document with a name below an empty one and beside it. -/
def shadowed : Value := .map [("", .map [("a", .int 1)]), ("a", .int 2)]

/-- The scalar below the empty name takes the key of the other one and is lost. -/
theorem flatten_shadowed : shadowed.Keyed ∧
    shadowed.leafPaths = [([[], ['a']], .int 1), ([['a']], .int 2)] ∧
    shadowed.flatten = [(['a'], .int 2)] ∧ keyPath (flatKey [[], ['a']]) ≠ [[], ['a']] :=
  ⟨by decide, rfl, rfl, by decide⟩

end Crosswalk.Value
