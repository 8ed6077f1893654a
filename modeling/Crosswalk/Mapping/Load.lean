import Crosswalk.Mapping.Include
import Crosswalk.Mapping.Xml

/-!
# Loading mappings

A mapping that names a base mapper is composed over it; the base may name another one. The calls
nest as deeply as the limit allows: `Loader.run` is the same on a stack that is finite.

* `Loader.load`: the mapping of a text.
-/

namespace Crosswalk

open Text

structure Loader where
  resolver : Resolver
  store : Store
  /-- How many mappings may stand below another one. -/
  maxDepth : Int

namespace Loader

/-- The levels of includes that may be read when `bases` base mappers may stand below. -/
def includeRoom (l : Loader) (bases : Nat) : Nat := if l.maxDepth < 0 then 0 else bases + 1

/-- The mapping of a text alone: xml with its includes expanded when it starts with a tag, else
lines. -/
def readAlone [Host] {ε : Type} (l : Loader) (expand : Text → Except ε Text) (name : Option Text)
    (text : Text) : Except ε Config :=
  let s := trim text
  if s = [] then .ok { Config.empty with info := { Info.empty with label := name } }
  else if startsWith ['<'] s then (expand s).map (Config.ofXml l.resolver name)
  else .ok (.ofLines l.resolver name s)

def loadAlone [Host] (l : Loader) (bases : Nat) (name fallback : Option Text) (text : Text) :
    Except Excess Config :=
  l.readAlone (Include.expand (l.includeRoom bases) l.store fallback) name text

/-- The text of a base mapper, from the directory of bases or from anywhere. -/
def base? (l : Loader) (mapper : Text) : Option Text :=
  (l.store.read ("base:" ++ mapper) none).or (l.store.read mapper none)

/-- Where the includes of a base mapper are read. -/
def baseFallback (l : Loader) (mapper : Text) : Text := (l.store.fallback? mapper).getD "base"

/-- A mapping over its base mapper, when it names one. -/
def overBase {ε : Type} (c : Config) (f : Text → Except ε Config) : Except ε Config :=
  match c.info.mapper with
  | some (m :: mapper) => f (m :: mapper)
  | _ => .ok c

/-- The mapping of a text, where at most `bases` base mappers may stand below it. -/
def loadWithin [Host] (l : Loader) :
    Nat → Option Text → Option Text → Text → Except Excess Config
  | 0, name, fallback, text =>
    (l.loadAlone 0 name fallback text).bind fun c =>
      overBase c fun mapper => .error (.bases (name.getD []) mapper)
  | bases + 1, name, fallback, text =>
    (l.loadAlone (bases + 1) name fallback text).bind fun c =>
      overBase c fun mapper =>
        match l.base? mapper with
        | none => .ok { c with problems := c.problems ++ [.missingBase mapper] }
        | some content =>
          (l.loadWithin bases (some mapper) (some (l.baseFallback mapper)) content).map fun base =>
            base.compose c

def load [Host] (l : Loader) (name fallback : Option Text) (text : Text) : Except Excess Config :=
  l.loadWithin l.maxDepth.toNat name fallback text

end Loader
end Crosswalk
