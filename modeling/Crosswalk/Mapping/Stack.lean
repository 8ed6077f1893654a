import Crosswalk.Mapping.Load

/-!
# Loading on a call stack

An include is expanded inside the expansion of the text above it, and a base mapper is loaded inside
the loading of the mapping over it. Each level takes calls of a stack that is finite: where the
limit lets mappings refer to each other more deeply than the stack holds, the stack is full first.

* `Loader.run stack`: the mapping of a text, where the stack holds `stack` more calls.
-/

namespace Crosswalk

open Text

/-- Why a text gives no mapping. -/
inductive Stop where
  | excess (e : Excess)
  /-- The next call is one too many for the stack. -/
  | overflow
  deriving DecidableEq

/-- So many calls, one inside the other, the last of them on what is left of the stack. -/
def Stop.call {α : Type} (calls stack : Nat) (f : Nat → Except Stop α) : Except Stop α :=
  if calls ≤ stack then f (stack - calls) else .error .overflow

/-- The calls from one level of includes to the next: the expansion of a text, the replacement of
its includes, and what takes the place of one. -/
def Include.levelCalls : Nat := 3

/-- The calls from one level of base mappers to the next: the loading of a text, and what composes
it over its base. -/
def Loader.levelCalls : Nat := 2

/-- A text with its includes expanded, each on what is left of the stack. -/
def Include.expandOn : Nat → Nat → Store → Option Text → Text → Except Stop Text
  | 0, _, _, _, s => if hasIncludes s then .error (.excess .includes) else .ok s
  | room + 1, stack, store, fallback, s =>
    if hasIncludes s then
      ((pieces form s).mapM (expandPiece fun reference =>
        match target? store fallback reference with
        | none => .ok []
        | some (content, inner) =>
          Stop.call levelCalls stack fun rest =>
            (expandOn room rest store inner content).map contentOf)).map List.flatten
    else .ok s

namespace Loader

/-- The mapping of a text alone. -/
def runAlone [Host] (l : Loader) (bases stack : Nat) (name fallback : Option Text) (text : Text) :
    Except Stop Config :=
  l.readAlone (Include.expandOn (l.includeRoom bases) stack l.store fallback) name text

/-- The mapping of a text, where at most `bases` base mappers may stand below it. -/
def runWithin [Host] (l : Loader) :
    Nat → Nat → Option Text → Option Text → Text → Except Stop Config
  | 0, stack, name, fallback, text =>
    (l.runAlone 0 stack name fallback text).bind fun c =>
      overBase c fun mapper => .error (.excess (.bases (name.getD []) mapper))
  | bases + 1, stack, name, fallback, text =>
    (l.runAlone (bases + 1) stack name fallback text).bind fun c =>
      overBase c fun mapper =>
        match l.base? mapper with
        | none => .ok { c with problems := c.problems ++ [.missingBase mapper] }
        | some content =>
          Stop.call levelCalls stack fun rest =>
            (l.runWithin bases rest (some mapper) (some (l.baseFallback mapper)) content).map
              fun base => base.compose c

def run [Host] (l : Loader) (stack : Nat) (name fallback : Option Text) (text : Text) :
    Except Stop Config :=
  l.runWithin l.maxDepth.toNat stack name fallback text

/-- What is left of a stack of a thousand calls, without those of who loads the mapping and those
that end at the deepest level. -/
def stackCalls : Nat := 960

end Loader
end Crosswalk
