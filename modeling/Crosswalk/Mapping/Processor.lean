import Crosswalk.Cache
import Crosswalk.Mapping.Load

/-!
# Processors of mappings

A processor loads mappings and may keep those that it loaded last. Each mapping that it builds gets
a number of its own, so two names hold the same mapping exactly when their numbers agree.

* `Processor.parse`: the mapping of a text, kept or built.
* `Processor.load`: the mapping that a reference names.
-/

namespace Crosswalk

/-- A mapping with its number. -/
structure Loaded where
  number : Nat
  config : Config

/-- Why a reference gives no mapping. -/
inductive LoadFault where
  | notFound (reference : Text)
  | excess (e : Excess)
  deriving DecidableEq

def LoadFault.message : LoadFault → Text
  | .notFound reference => "Mapping \"" ++ reference ++ "\" not found."
  | .excess e => e.message

structure Processor where
  loader : Loader
  /-- The mappings that are kept, if any are. -/
  cache : Option (Cache Loaded)
  /-- The number of the next mapping that is built. -/
  next : Nat

namespace Processor

def ofLoader (l : Loader) (capacity : Option Nat) : Processor := ⟨l, capacity.map Cache.empty, 0⟩

/-- The options with which a text is read. -/
def options (p : Processor) (name fallback : Option Text) : Pairs Text Value := [
  ("name", (name.map Value.str).getD .null), ("prefix", (fallback.map Value.str).getD .null),
  ("check_field", .bool p.loader.resolver.checkField)]

/-- A mapping with the next number. -/
def take (p : Processor) (c : Config) : Loaded × Processor :=
  (⟨p.next, c⟩, { p with next := p.next + 1 })

/-- The mapping of a text that is built anew. -/
def build [Host] (p : Processor) (name fallback : Option Text) (text : Text) :
    Except Excess (Loaded × Processor) :=
  (p.loader.load name fallback text).map p.take

/-- The mapping of a text: the one that is kept under its key, or else a new one. -/
def parse [Host] (p : Processor) (name fallback : Option Text) (text : Text) :
    Except Excess (Loaded × Processor) :=
  match p.cache with
  | none => p.build name fallback text
  | some cache =>
    let key := Cache.key text (p.options name fallback)
    match cache.get key with
    | (some loaded, used) => .ok (loaded, { p with cache := some used })
    | (none, _) =>
      (p.build name fallback text).map fun built =>
        (built.1, { built.2 with cache := some (cache.set key built.1) })

def load [Host] (p : Processor) (reference : Text) : Except LoadFault (Loaded × Processor) :=
  match p.loader.store.read reference none with
  | none => .error (.notFound reference)
  | some content =>
    (p.parse (some reference) (p.loader.store.shortName? reference) content).mapError .excess

/-- Two mappings as one new mapping. -/
def compose (p : Processor) (base child : Config) : Loaded × Processor :=
  p.take (base.compose child)

def forget (p : Processor) : Processor := { p with cache := p.cache.map Cache.clear }

end Processor
end Crosswalk
