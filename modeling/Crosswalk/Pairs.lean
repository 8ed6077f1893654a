/-!
# Ordered pairs

A list of pairs read as a map whose keys keep the order in which they came first.

* `put k v m`: `v` under `k`, at the place of `k` when it is there, else at the end.
* `get? k m`: the value under `k`.
* `ofList`, `merge`: pairs put one after another, so the last value of a key wins.
* `distinct xs`: the first occurrences of the items of a list.
* `distinctOn f xs`: the first items of a list with each value of `f`.
* `sortBy le xs`: the items in order, equal ones as they came.
-/

namespace Crosswalk

/-- The first occurrences of the items, in order. -/
def distinct {α : Type} [BEq α] : List α → List α
  | [] => []
  | x :: xs => x :: (distinct xs).filter (· != x)

/-- The first items with each value of `f`, in order. -/
def distinctOn {α β : Type} [BEq β] (f : α → β) : List α → List α
  | [] => []
  | x :: xs => x :: (distinctOn f xs).filter fun y => f y != f x

/-- One more item before the first one that it may come before. -/
def insertBy {α : Type} (le : α → α → Bool) (x : α) : List α → List α
  | [] => [x]
  | y :: ys => if le x y then x :: y :: ys else y :: insertBy le x ys

/-- The items in order. The recursion is on the list, where `List.mergeSort` halves it: what sorts
closed terms with it can be evaluated by `decide`. -/
def sortBy {α : Type} (le : α → α → Bool) (xs : List α) : List α := xs.foldr (insertBy le) []

abbrev Pairs (κ α : Type) := List (κ × α)

namespace Pairs

variable {κ α : Type} [DecidableEq κ]

/-! ## Algorithm -/

def put (k : κ) (v : α) : Pairs κ α → Pairs κ α
  | [] => [(k, v)]
  | (l, w) :: m => if l = k then (l, v) :: m else (l, w) :: put k v m

def get? (k : κ) : Pairs κ α → Option α
  | [] => none
  | (l, w) :: m => if l = k then some w else get? k m

def has (k : κ) (m : Pairs κ α) : Bool := (get? k m).isSome

/-- The value under `k`, kept when it is there. -/
def putNew (k : κ) (v : α) (m : Pairs κ α) : Pairs κ α := if has k m then m else put k v m

def merge (m more : Pairs κ α) : Pairs κ α := more.foldl (fun m p => put p.1 p.2 m) m

def ofList (ps : List (κ × α)) : Pairs κ α := merge [] ps

def keys (m : Pairs κ α) : List κ := m.map (·.1)

/-! ## Lemmas -/

theorem get?_put (k l : κ) (v : α) (m : Pairs κ α) :
    get? l (put k v m) = if l = k then some v else get? l m := by
  induction m with
  | nil => simp [put, get?, eq_comm]
  | cons p m ih =>
    obtain ⟨a, w⟩ := p
    by_cases ha : a = k
    · subst ha
      by_cases h : a = l
      · simp [put, get?, h]
      · simp [put, get?, h, Ne.symm h]
    · by_cases h : a = l
      · subst h
        simp [put, get?, ha]
      · simp [put, get?, ha, h, ih]

theorem keys_put (k : κ) (v : α) (m : Pairs κ α) :
    keys (put k v m) = if k ∈ keys m then keys m else keys m ++ [k] := by
  induction m with
  | nil => simp [put, keys]
  | cons p m ih =>
    obtain ⟨a, w⟩ := p
    by_cases ha : a = k
    · simp [put, keys, ha]
    · have hk : ¬ k = a := fun e => ha e.symm
      simp only [keys] at ih
      by_cases hm : k ∈ m.map (·.1) <;> simp_all [put, keys]

end Pairs
end Crosswalk
