import Crosswalk.Query.Flat
import Crosswalk.Text.Basic

/-!
# Flat keys

A path is the list of the names that lead to a value. Its key joins the names with points, after
points and backslashes in them are escaped, and the names are read back from it:

    path ≠ [] → keyPath (pathKey path) = path                               (keyPath_pathKey)

The key under which a flat document keeps a scalar is built from the outside in. As an empty key
has nothing to join, the empty names that a path starts with leave no trace in it:

    flatKey path = pathKey (fromName path)                                        (flatKey_eq)
    flatKey p = flatKey q ↔ fromName p = fromName q                           (flatKey_eq_iff)
-/

namespace Crosswalk

open Text

/-! ## Algorithm -/

/-- The names of a path, escaped, between points. -/
def pathKey (path : List Text) : Text := joinWith ['.'] (path.map escapeKey)

/-- One more character before the first part. -/
def consFirst (c : Char) : List Text → List Text
  | [] => [[c]]
  | part :: parts => (c :: part) :: parts

/-- The parts between the points that are not escaped. -/
def cutKey : Text → List Text
  | [] => [[]]
  | '\\' :: c :: s => consFirst '\\' (consFirst c (cutKey s))
  | '.' :: s => [] :: cutKey s
  | c :: s => consFirst c (cutKey s)

/-- Every character behind a backslash stands for itself. -/
def unescapeKey : Text → Text
  | '\\' :: c :: s => c :: unescapeKey s
  | c :: s => c :: unescapeKey s
  | [] => []

/-- The path that a key is read as. -/
def keyPath (key : Text) : List Text := (cutKey key).map unescapeKey

/-- The key of a path in a flat document. -/
def flatKey (path : List Text) : Text := path.foldl joinKey []

/-- A path from its first name that is not empty. -/
def fromName (path : List Text) : List Text := path.dropWhile (· == [])

/-! ## Escaped names -/

variable {name : Text} {path p q : List Text}

theorem escapeKey_cons (c : Char) (name : Text) : escapeKey (c :: name) =
    (if c = '.' ∨ c = '\\' then ['\\', c] else [c]) ++ escapeKey name := rfl

theorem escapeKey_eq_nil : escapeKey name = [] ↔ name = [] := by
  cases name with
  | nil => exact Iff.of_eq (by rfl)
  | cons c name =>
    rw [escapeKey_cons]
    split <;> simp

theorem escapeKey_of_plain (h : ∀ c ∈ name, c ≠ '.' ∧ c ≠ '\\') : escapeKey name = name := by
  induction name with
  | nil => rfl
  | cons c name ih =>
    obtain ⟨hpoint, hslash⟩ := h c List.mem_cons_self
    rw [escapeKey_cons, if_neg (by simp [hpoint, hslash]),
      ih fun d hd => h d (List.mem_cons_of_mem c hd)]
    rfl

theorem unescapeKey_escapeKey (name : Text) : unescapeKey (escapeKey name) = name := by
  induction name with
  | nil => rfl
  | cons c name ih =>
    rw [escapeKey_cons]
    split
    · exact congrArg (c :: ·) ih
    · next h =>
      have hslash : c ≠ '\\' := fun e => h (.inr e)
      rw [List.singleton_append, unescapeKey, ih]
      simp [hslash]

/-- An escaped name has no place to cut at. -/
theorem cutKey_escapeKey_append (name : Text) {s part : Text} {parts : List Text}
    (h : cutKey s = part :: parts) : cutKey (escapeKey name ++ s) =
      (escapeKey name ++ part) :: parts := by
  induction name with
  | nil => exact h
  | cons c name ih =>
    rw [escapeKey_cons]
    split
    · show consFirst '\\' (consFirst c (cutKey (escapeKey name ++ s))) = _
      rw [ih]
      rfl
    · next hc =>
      obtain ⟨hpoint, hslash⟩ := not_or.1 hc
      rw [List.singleton_append, List.cons_append, cutKey, ih]
      · rfl
      · simp [hslash]
      · simpa using hpoint

/-! ## Keys of paths -/

theorem pathKey_cons (name : Text) (h : path ≠ []) :
    pathKey (name :: path) = escapeKey name ++ '.' :: pathKey path := by
  unfold pathKey
  rw [List.map_cons, joinWith_cons _ _ (by simpa using h), List.append_assoc]
  rfl

theorem pathKey_singleton (name : Text) : pathKey [name] = escapeKey name := joinWith_singleton _ _

theorem cutKey_pathKey (h : path ≠ []) : cutKey (pathKey path) = path.map escapeKey := by
  induction path with
  | nil => exact absurd rfl h
  | cons name path ih =>
    cases path with
    | nil =>
      have hcut := cutKey_escapeKey_append name (s := []) rfl
      rw [List.append_nil] at hcut
      rw [pathKey_singleton, hcut]
      rfl
    | cons next path =>
      rw [pathKey_cons name (by simp), cutKey_escapeKey_append name (by rw [cutKey]), ih (by simp),
        List.append_nil]
      rfl

/-- **A key** is read as its path. -/
theorem keyPath_pathKey (h : path ≠ []) : keyPath (pathKey path) = path := by
  unfold keyPath
  rw [cutKey_pathKey h, List.map_map]
  exact (List.map_congr_left fun name _ => unescapeKey_escapeKey name).trans (List.map_id path)

theorem pathKey_injective (hp : p ≠ []) (hq : q ≠ []) (h : pathKey p = pathKey q) : p = q := by
  rw [← keyPath_pathKey hp, h, keyPath_pathKey hq]

theorem pathKey_eq_nil : pathKey path = [] ↔ path = [] ∨ path = [[]] := by
  constructor
  · intro h
    cases path with
    | nil => exact .inl rfl
    | cons name path => exact .inr (pathKey_injective (by simp) (by simp) h)
  · rintro (rfl | rfl) <;> rfl

/-- A key that starts with an escaped name and a point has this name first. -/
theorem head?_of_after? (h : path ≠ []) {rest : Text}
    (hafter : after? (escapeKey name ++ ['.']) (pathKey path) = some rest) :
    path.head? = some name := by
  have hkey : pathKey path = escapeKey name ++ '.' :: rest := by
    rw [after?_eq_some.1 hafter, List.append_assoc]
    rfl
  have hpath := keyPath_pathKey h
  rw [hkey, keyPath, cutKey_escapeKey_append name (by rw [cutKey]), List.append_nil, List.map_cons,
    unescapeKey_escapeKey] at hpath
  rw [← hpath]
  rfl

theorem pathKey_append_singleton (h : path ≠ []) (name : Text) :
    pathKey (path ++ [name]) = pathKey path ++ '.' :: escapeKey name := by
  induction path with
  | nil => exact absurd rfl h
  | cons first path ih =>
    cases path with
    | nil => rw [List.singleton_append, pathKey_cons first (by simp), pathKey_singleton,
        pathKey_singleton]
    | cons next path =>
      rw [List.cons_append, pathKey_cons first (by simp), ih (by simp), pathKey_cons first (by simp),
        List.append_assoc, List.cons_append]

/-! ## Keys of flat documents -/

theorem joinKey_of_ne {base : Text} (h : base ≠ []) (name : Text) :
    joinKey base name = base ++ '.' :: escapeKey name := if_neg h

theorem foldl_joinKey (h : pathKey p ≠ []) (q : List Text) :
    q.foldl joinKey (pathKey p) = pathKey (p ++ q) := by
  induction q generalizing p with
  | nil => rw [List.append_nil, List.foldl_nil]
  | cons name q ih =>
    have hp : p ≠ [] := by
      rintro rfl
      exact h rfl
    have hstep : joinKey (pathKey p) name = pathKey (p ++ [name]) := by
      rw [joinKey_of_ne h, pathKey_append_singleton hp]
    rw [List.foldl_cons, hstep, ih, List.append_assoc, List.singleton_append]
    rw [← hstep, joinKey_of_ne h]
    simp

/-- **The key of a path** in a flat document tells the path from its first name that is not
empty. -/
theorem flatKey_eq (path : List Text) : flatKey path = pathKey (fromName path) := by
  unfold flatKey
  induction path with
  | nil => rfl
  | cons name path ih =>
    rw [fromName, List.dropWhile_cons]
    by_cases hname : name = []
    · subst hname
      exact ih
    · have hkey : pathKey [name] ≠ [] := by
        rw [pathKey_singleton]
        exact mt escapeKey_eq_nil.1 hname
      have hfirst : joinKey [] name = pathKey [name] := (pathKey_singleton name).symm
      rw [if_neg (by simpa using hname), List.foldl_cons, hfirst, foldl_joinKey hkey]
      rfl

theorem fromName_of_head (h : path.head? ≠ some []) : fromName path = path := by
  cases path with
  | nil => rfl
  | cons name path =>
    have hname : name ≠ [] := fun e => h (congrArg some e)
    rw [fromName, List.dropWhile_cons, if_neg (by simpa using hname)]

theorem flatKey_of_head (h : path.head? ≠ some []) : flatKey path = pathKey path := by
  rw [flatKey_eq, fromName_of_head h]

theorem head?_fromName (path : List Text) : (fromName path).head? ≠ some [] := by
  intro h
  have := List.head?_dropWhile_not (· == []) path
  rw [fromName] at h
  rw [h] at this
  simp at this

theorem flatKey_eq_iff : flatKey p = flatKey q ↔ fromName p = fromName q := by
  have hone : ∀ path, fromName path ≠ [[]] := fun path h => by
    have := head?_fromName path
    rw [h] at this
    exact this rfl
  rw [flatKey_eq, flatKey_eq]
  refine ⟨fun h => ?_, congrArg pathKey⟩
  by_cases hp : fromName p = []
  · rw [hp] at h ⊢
    exact ((pathKey_eq_nil.1 h.symm).resolve_right (hone q)).symm
  · by_cases hq : fromName q = []
    · rw [hq] at h
      exact absurd ((pathKey_eq_nil.1 h).resolve_right (hone p)) hp
    · exact pathKey_injective hp hq h

/-- The key is read as the path that starts with a name, unless there is none. -/
theorem keyPath_flatKey (path : List Text) :
    keyPath (flatKey path) = if fromName path = [] then [[]] else fromName path := by
  rw [flatKey_eq]
  split
  · next h =>
    rw [h]
    rfl
  · next h => exact keyPath_pathKey h

theorem keyPath_flatKey_eq_iff : keyPath (flatKey path) = path ↔
    path = [[]] ∨ (path ≠ [] ∧ path.head? ≠ some []) := by
  rw [keyPath_flatKey]
  constructor
  · intro h
    split at h
    · exact .inl h.symm
    · next hne => exact .inr ⟨fun e => hne (h.trans e), h ▸ head?_fromName path⟩
  · rintro (rfl | ⟨hne, hhead⟩)
    · rfl
    · rw [fromName_of_head hhead, if_neg hne]

end Crosswalk
