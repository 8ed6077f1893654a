import Crosswalk.Proofs.Number.Digits
import Crosswalk.Proofs.Pairs
import Crosswalk.Proofs.Query.Keys

/-!
# Scalars and their paths

The parts of a list are its items under their positions, those of a map its members. A path names
one part after another, and every scalar of a value has a path of its own:

    (path, w) ∈ v.leafPaths ↔ v.follow path = some w ∧ w.isScalar = true       (mem_leafPaths)
    (v.leafPaths.map (·.1)).Nodup                                         (nodup_leafPaths)

where no map has a name twice (`Keyed`). The scalars of a flat document are these, each under the
key of its path (`leaves_eq`).
-/

namespace Crosswalk.Value

open Text

/-! ## Algorithm -/

/-- Items under their positions from `i` on. -/
def positioned (i : Nat) : List Value → List (Text × Value)
  | [] => []
  | v :: vs => (natText i, v) :: positioned (i + 1) vs

def parts : Value → List (Text × Value)
  | .list items => positioned 0 items
  | .map members => members
  | _ => []

/-- The value that a path leads to, if any. -/
def follow : List Text → Value → Option Value
  | [], v => some v
  | name :: path, v => (Pairs.get? name v.parts).bind (follow path)

/-- A path below one more name. -/
def under (name : Text) (leaf : List Text × Value) : List Text × Value := (name :: leaf.1, leaf.2)

mutual

/-- The scalars with the paths that lead to them. -/
def leafPaths : Value → List (List Text × Value)
  | .list items => itemPaths 0 items
  | .map members => memberPaths members
  | v => [([], v)]

def itemPaths (i : Nat) : List Value → List (List Text × Value)
  | [] => []
  | v :: vs => (leafPaths v).map (under (natText i)) ++ itemPaths (i + 1) vs

def memberPaths : List (Text × Value) → List (List Text × Value)
  | [] => []
  | (k, v) :: ms => (leafPaths v).map (under k) ++ memberPaths ms

end

mutual

/-- The names of the members of each map in the value. -/
def nameLists : Value → List (List Text)
  | .list items => itemNames items
  | .map members => members.map (·.1) :: memberNames members
  | _ => []

def itemNames : List Value → List (List Text)
  | [] => []
  | v :: vs => nameLists v ++ itemNames vs

def memberNames : List (Text × Value) → List (List Text)
  | [] => []
  | (_, v) :: ms => nameLists v ++ memberNames ms

end

/-- No map in the value has a name twice. -/
def Keyed (v : Value) : Prop := ∀ names ∈ v.nameLists, names.Nodup

instance (v : Value) : Decidable v.Keyed := inferInstanceAs (Decidable (∀ names ∈ _, _))

/-- All members of the maps in the value have such a name. -/
def Named (p : Text → Prop) (v : Value) : Prop := ∀ names ∈ v.nameLists, ∀ name ∈ names, p name

instance (p : Text → Prop) [DecidablePred p] (v : Value) : Decidable (v.Named p) :=
  inferInstanceAs (Decidable (∀ names ∈ _, ∀ name ∈ names, p name))

/-! ## Parts -/

variable {v w : Value} {name : Text} {path : List Text}

theorem natText_ne_nil (i : Nat) : natText i ≠ [] := by
  obtain ⟨d, ds, h, -⟩ := natText_eq i
  rw [h]
  exact List.cons_ne_nil d ds

theorem parts_of_scalar (h : v.isScalar = true) : v.parts = [] := by
  cases v <;> first | rfl | cases h

theorem mem_positioned {i : Nat} {items : List Value} :
    (name, v) ∈ positioned i items ↔ ∃ j, name = natText (i + j) ∧ items[j]? = some v := by
  induction items generalizing i with
  | nil => simp [positioned]
  | cons w items ih =>
    rw [positioned, List.mem_cons, ih]
    constructor
    · rintro (e | ⟨j, rfl, hj⟩)
      · obtain ⟨rfl, rfl⟩ := Prod.mk.inj e
        exact ⟨0, rfl, rfl⟩
      · exact ⟨j + 1, by rw [Nat.add_assoc, Nat.add_comm 1 j], hj⟩
    · rintro ⟨j, rfl, hj⟩
      cases j with
      | zero =>
        obtain rfl : w = v := by simpa using hj
        exact .inl rfl
      | succ j => exact .inr ⟨j, by rw [Nat.add_assoc, Nat.add_comm 1 j], by simpa using hj⟩

/-- Every item has a position. -/
theorem exists_part {items : List Value} (h : v ∈ items) : ∃ name, (name, v) ∈ (list items).parts := by
  obtain ⟨i, hi⟩ := List.mem_iff_getElem?.1 h
  exact ⟨_, mem_positioned.2 ⟨i, rfl, hi⟩⟩

theorem nodup_positioned (i : Nat) (items : List Value) :
    (Pairs.keys (positioned i items)).Nodup := by
  induction items generalizing i with
  | nil => exact List.nodup_nil
  | cons v items ih =>
    refine List.nodup_cons.2 ⟨fun h => ?_, ih (i + 1)⟩
    obtain ⟨⟨name, w⟩, hmem, hname⟩ := List.mem_map.1 h
    obtain ⟨j, rfl, -⟩ := mem_positioned.1 hmem
    have := natText_injective hname
    omega

/-- The parts of a list are found by their positions. -/
theorem get?_positioned (i : Nat) (items : List Value) :
    Pairs.get? (natText i) (positioned 0 items) = items[i]? := by
  ext w
  constructor
  · intro h
    obtain ⟨j, hj, hw⟩ := mem_positioned.1 (Pairs.mem_of_get? h)
    rw [Nat.zero_add] at hj
    rw [natText_injective hj, hw]
  · intro h
    exact Pairs.get?_of_mem (nodup_positioned 0 items)
      (mem_positioned.2 ⟨i, by rw [Nat.zero_add], h⟩)

theorem sizeOf_part {p : Text × Value} (h : p ∈ v.parts) : sizeOf p.2 < sizeOf v := by
  obtain ⟨name, w⟩ := p
  cases v with
  | list items =>
    obtain ⟨j, -, hj⟩ := mem_positioned.1 h
    have := List.sizeOf_lt_of_mem (List.mem_of_getElem? hj)
    simp only [Value.list.sizeOf_spec]
    omega
  | map members =>
    have hmem : (name, w) ∈ members := h
    have := List.sizeOf_lt_of_mem hmem
    simp only [Value.map.sizeOf_spec, Prod.mk.sizeOf_spec] at this ⊢
    omega
  | _ => cases h

/-- What holds of a value once it holds of its parts holds of all values. -/
@[elab_as_elim] theorem parts_induction {motive : Value → Prop}
    (step : ∀ v, (∀ p ∈ v.parts, motive p.2) → motive v) (v : Value) : motive v :=
  step v fun p hp =>
    have := sizeOf_part hp
    parts_induction step p.2
termination_by sizeOf v

/-! ## Names -/

theorem itemNames_eq (items : List Value) : itemNames items = items.flatMap nameLists := by
  induction items with
  | nil => rfl
  | cons v items ih => rw [itemNames, ih, List.flatMap_cons]

theorem memberNames_eq (members : List (Text × Value)) :
    memberNames members = members.flatMap fun p => p.2.nameLists := by
  induction members with
  | nil => rfl
  | cons p members ih => rw [memberNames, ih, List.flatMap_cons]

theorem nameLists_part {p : Text × Value} (h : p ∈ v.parts) : p.2.nameLists ⊆ v.nameLists := by
  intro names hnames
  obtain ⟨name, w⟩ := p
  cases v with
  | list items =>
    obtain ⟨j, -, hj⟩ := mem_positioned.1 h
    rw [nameLists, itemNames_eq]
    exact List.mem_flatMap.2 ⟨w, List.mem_of_getElem? hj, hnames⟩
  | map members =>
    rw [nameLists, memberNames_eq]
    exact List.mem_cons_of_mem _ (List.mem_flatMap.2 ⟨_, h, hnames⟩)
  | _ => cases h

theorem Keyed.part {p : Text × Value} (h : v.Keyed) (hp : p ∈ v.parts) : p.2.Keyed :=
  fun names hnames => h names (nameLists_part hp hnames)

theorem Named.part {q : Text → Prop} {p : Text × Value} (h : v.Named q) (hp : p ∈ v.parts) :
    p.2.Named q :=
  fun names hnames => h names (nameLists_part hp hnames)

theorem Keyed.nodup (h : v.Keyed) : (Pairs.keys v.parts).Nodup := by
  cases v with
  | list items => exact nodup_positioned 0 items
  | map members => exact h _ (by rw [nameLists]; exact List.mem_cons_self)
  | _ => exact List.nodup_nil

/-- A name that all members and all positions have. -/
theorem Named.of_part {q : Text → Prop} {p : Text × Value} (h : v.Named q)
    (hposition : ∀ i, q (natText i)) (hp : p ∈ v.parts) : q p.1 := by
  obtain ⟨name, w⟩ := p
  cases v with
  | list items =>
    obtain ⟨j, rfl, -⟩ := mem_positioned.1 hp
    exact hposition _
  | map members =>
    exact h _ (by rw [nameLists]; exact List.mem_cons_self) _ (List.mem_map_of_mem hp)
  | _ => cases hp

/-! ## Paths -/

theorem itemPaths_eq (i : Nat) (items : List Value) :
    itemPaths i items = (positioned i items).flatMap fun p => p.2.leafPaths.map (under p.1) := by
  induction items generalizing i with
  | nil => rfl
  | cons v items ih => rw [itemPaths, ih, positioned, List.flatMap_cons]

theorem memberPaths_eq (members : List (Text × Value)) :
    memberPaths members = members.flatMap fun p => p.2.leafPaths.map (under p.1) := by
  induction members with
  | nil => rfl
  | cons p members ih => rw [memberPaths, ih, List.flatMap_cons]

theorem leafPaths_of_scalar (h : v.isScalar = true) : v.leafPaths = [([], v)] := by
  cases v <;> first | rfl | cases h

theorem leafPaths_of_parts (h : v.isScalar = false) :
    v.leafPaths = v.parts.flatMap fun p => p.2.leafPaths.map (under p.1) := by
  cases v with
  | list items => rw [leafPaths, itemPaths_eq, parts]
  | map members => rw [leafPaths, memberPaths_eq, parts]
  | _ => cases h

theorem follow_append (path more : List Text) (v : Value) :
    v.follow (path ++ more) = (v.follow path).bind (follow more) := by
  induction path generalizing v with
  | nil => rfl
  | cons name path ih =>
    rw [List.cons_append, follow, follow, Option.bind_assoc]
    exact congrArg _ (funext ih)

theorem follow_singleton (name : Text) (v : Value) :
    v.follow [name] = Pairs.get? name v.parts := by
  rw [follow]
  cases Pairs.get? name v.parts <;> rfl

/-- **A scalar** is listed with a path when the path leads to it. -/
theorem mem_leafPaths (hv : v.Keyed) :
    (path, w) ∈ v.leafPaths ↔ v.follow path = some w ∧ w.isScalar = true := by
  induction v using parts_induction generalizing path with
  | step v ih =>
  by_cases hs : v.isScalar = true
  · rw [leafPaths_of_scalar hs, List.mem_singleton, Prod.mk.injEq]
    constructor
    · rintro ⟨rfl, rfl⟩
      exact ⟨rfl, hs⟩
    · rintro ⟨hfollow, -⟩
      cases path with
      | nil => exact ⟨rfl, (Option.some.inj hfollow).symm⟩
      | cons name path =>
        rw [follow, parts_of_scalar hs] at hfollow
        cases hfollow
  · rw [leafPaths_of_parts (Bool.not_eq_true _ ▸ hs), List.mem_flatMap]
    constructor
    · rintro ⟨⟨name, u⟩, hu, hmem⟩
      obtain ⟨⟨more, x⟩, hx, e⟩ := List.mem_map.1 hmem
      obtain ⟨rfl, rfl⟩ := Prod.mk.inj e
      rw [follow, Pairs.get?_of_mem hv.nodup hu]
      exact (ih _ hu (hv.part hu)).1 hx
    · rintro ⟨hfollow, hw⟩
      cases path with
      | nil => exact absurd ((Option.some.inj hfollow).symm ▸ hw) hs
      | cons name path =>
        obtain ⟨u, hu, hfollow⟩ := Option.bind_eq_some_iff.1 hfollow
        have hmem := Pairs.mem_of_get? hu
        exact ⟨_, hmem, List.mem_map.2 ⟨_, (ih _ hmem (hv.part hmem)).2 ⟨hfollow, hw⟩, rfl⟩⟩

/-- No two scalars have one path. -/
theorem nodup_leafPaths (hv : v.Keyed) : (v.leafPaths.map (·.1)).Nodup := by
  induction v using parts_induction with
  | step v ih =>
  by_cases hs : v.isScalar = true
  · rw [leafPaths_of_scalar hs]
    exact List.nodup_singleton _
  · rw [leafPaths_of_parts (Bool.not_eq_true _ ▸ hs), List.map_flatMap, List.nodup_flatMap]
    constructor
    · intro p hp
      have hmap : (p.2.leafPaths.map (under p.1)).map (·.1) =
          (p.2.leafPaths.map (·.1)).map (p.1 :: ·) := by
        rw [List.map_map, List.map_map]
        rfl
      rw [hmap]
      exact (ih p hp (hv.part hp)).map fun _ _ e => (List.cons.inj e).2
    · refine (List.pairwise_map.1 hv.nodup).imp fun {p q} hne => ?_
      intro path hpath hpath'
      obtain ⟨_, hl, rfl⟩ := List.mem_map.1 hpath
      obtain ⟨l, -, rfl⟩ := List.mem_map.1 hl
      obtain ⟨_, hm, e⟩ := List.mem_map.1 hpath'
      obtain ⟨m, -, rfl⟩ := List.mem_map.1 hm
      exact hne (List.cons.inj e).1.symm

theorem Named.of_path {q : Text → Prop} (h : v.Named q) (hposition : ∀ i, q (natText i))
    {leaf : List Text × Value} (hleaf : leaf ∈ v.leafPaths) : ∀ name ∈ leaf.1, q name := by
  induction v using parts_induction generalizing leaf with
  | step v ih =>
  by_cases hs : v.isScalar = true
  · rw [leafPaths_of_scalar hs, List.mem_singleton] at hleaf
    rw [hleaf]
    exact fun _ hn => absurd hn List.not_mem_nil
  · rw [leafPaths_of_parts (Bool.not_eq_true _ ▸ hs)] at hleaf
    obtain ⟨p, hp, hmem⟩ := List.mem_flatMap.1 hleaf
    obtain ⟨more, hmore, rfl⟩ := List.mem_map.1 hmem
    intro name hname
    rcases List.mem_cons.1 hname with rfl | hname
    · exact h.of_part hposition hp
    · exact ih p hp (h.part hp) hmore name hname

/-! ## Scalars of flat documents -/

theorem itemLeaves_eq (base : Text) (i : Nat) (items : List Value) : itemLeaves base i items =
    (positioned i items).flatMap fun p => leaves (joinKey base p.1) p.2 := by
  induction items generalizing i with
  | nil => rfl
  | cons v items ih => rw [itemLeaves, ih, positioned, List.flatMap_cons]

theorem memberLeaves_eq (base : Text) (members : List (Text × Value)) :
    memberLeaves base members = members.flatMap fun p => leaves (joinKey base p.1) p.2 := by
  induction members with
  | nil => rfl
  | cons p members ih => rw [memberLeaves, ih, List.flatMap_cons]

theorem leaves_of_scalar (base : Text) (h : v.isScalar = true) : leaves base v = [(base, v)] := by
  cases v <;> first | rfl | cases h

theorem leaves_of_parts (base : Text) (h : v.isScalar = false) :
    leaves base v = v.parts.flatMap fun p => leaves (joinKey base p.1) p.2 := by
  cases v with
  | list items => rw [leaves, itemLeaves_eq, parts]
  | map members => rw [leaves, memberLeaves_eq, parts]
  | _ => cases h

/-- The key of a scalar is joined from the names of its path. -/
theorem leaves_eq (base : Text) (v : Value) :
    leaves base v = v.leafPaths.map fun l => (l.1.foldl joinKey base, l.2) := by
  -- The base varies: below a part the names are joined to its key.
  induction v using parts_induction generalizing base with
  | step v ih =>
  by_cases hs : v.isScalar = true
  · rw [leaves_of_scalar base hs, leafPaths_of_scalar hs]
    rfl
  · have hs := Bool.not_eq_true _ ▸ hs
    rw [leaves_of_parts base hs, leafPaths_of_parts hs, List.map_flatMap]
    refine List.flatMap_congr fun p hp => ?_
    rw [ih p hp, List.map_map]
    rfl

end Crosswalk.Value
