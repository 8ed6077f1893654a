import Crosswalk.Digest.Sha256
import Crosswalk.Json.Ordered
import Crosswalk.Json.Writer

/-!
# Caches

A cache keeps the values that were used last, at most as many as its capacity. Its entries stand
in the order of their last use, the oldest first.

* `Cache.get k c`: the value under `k`, and the cache after this use.
* `Cache.set k v c`: the cache with `v` under `k`; what is too much is dropped, the oldest first
  (`size_set`).
* `Cache.key text options`: a key that stands for a text and the options it is read with.
-/

namespace Crosswalk

structure Cache (α : Type) where
  capacity : Nat
  entries : Pairs Text α

namespace Cache

variable {α : Type}

/-! ## Algorithm -/

def empty (capacity : Nat) : Cache α := ⟨capacity, []⟩

def keys (c : Cache α) : List Text := c.entries.keys

def size (c : Cache α) : Nat := c.entries.length

def has (k : Text) (c : Cache α) : Bool := Pairs.has k c.entries

/-- The entries with `v` under `k` as the one that was used last. -/
def use (k : Text) (v : α) (entries : Pairs Text α) : Pairs Text α :=
  (entries.filter fun p => p.1 != k) ++ [(k, v)]

def get (k : Text) (c : Cache α) : Option α × Cache α :=
  match Pairs.get? k c.entries with
  | some v => (some v, { c with entries := use k v c.entries })
  | none => (none, c)

def set (k : Text) (v : α) (c : Cache α) : Cache α :=
  let entries := use k v c.entries
  { c with entries := entries.drop (entries.length - c.capacity) }

def clear (c : Cache α) : Cache α := { c with entries := [] }

/-! ## Keys -/

/-- The options as they stand behind a text; without options nothing does. -/
def optionsText : Pairs Text Value → Text
  | [] => []
  | o :: options => Json.write Json.spaced (Json.ordered (.map (o :: options)))

def key (text : Text) (options : Pairs Text Value) : Text :=
  Text.hexOctets (sha256 (Text.octets (text ++ optionsText options)))

/-! ## Lemmas -/

@[simp] theorem capacity_set (k : Text) (v : α) (c : Cache α) :
    (c.set k v).capacity = c.capacity := rfl

@[simp] theorem capacity_clear (c : Cache α) : c.clear.capacity = c.capacity := rfl

@[simp] theorem capacity_get (k : Text) (c : Cache α) : (c.get k).2.capacity = c.capacity := by
  unfold get
  split <;> rfl

theorem size_set (k : Text) (v : α) (c : Cache α) : (c.set k v).size ≤ c.capacity := by
  simp only [set, size, List.length_drop]
  omega

example : optionsText [("b", .list [.map [("y", .null), ("x", .str "é")]]), ("a", .int 1)] =
    "\x7b\"a\": 1, \"b\": [\x7b\"x\": \"\\u00e9\", \"y\": null\x7d]\x7d" := by decide

end Cache
end Crosswalk
