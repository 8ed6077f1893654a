import Crosswalk.Text.Case
import Crosswalk.Text.Name
import Crosswalk.Vocabulary.Register

/-!
# Fields

A field names a property by an entry of an override table, its term, the labels of its vocabulary
and property, its local name or its label alone. `FieldMatcher.match?` looks in these lists in
order, each with the case as written and then without regard to it.
-/

namespace Crosswalk

open Text

structure FieldMatcher where
  register : Register
  overrides : Pairs Text Text
  /-- Whether a local name or label may stand without its vocabulary. -/
  namesAlone : Bool

namespace FieldMatcher

def shortMark : Text := "dc:"

def longMark : Text := "dcterms:"

/-- The short name `dc` stands for `dcterms`. -/
def canonicalTerm (name : Text) : Text :=
  match after? shortMark name with
  | some localName => longMark ++ localName
  | none => name

/-- The terms with their labels, and the Dublin Core terms once more under the short name. -/
def names (r : Register) : Pairs Text Text :=
  r.terms.foldl (fun m p =>
    match after? longMark p.1 with
    | some localName => m.putNew (shortMark ++ localName) p.2
    | none => m) r.terms

def cleanOverrides (m : FieldMatcher) : Pairs Text Text :=
  Pairs.ofList (m.overrides.map fun p => (cleanName p.1, p.2))

def byName (r : Register) : Pairs Text Text :=
  (names r).map fun p => (p.1, canonicalTerm p.1)

def byLabel (r : Register) : Pairs Text Text :=
  Pairs.ofList ((names r).map fun p => (cleanName p.2, canonicalTerm p.1))

/-- The names without what stands before their last colon. -/
def withoutVocabulary (m : Pairs Text Text) : Pairs Text Text :=
  Pairs.ofList (m.map fun p => (afterLast ':' p.1, p.2))

/-- The lists that are searched, in order. -/
def lists (m : FieldMatcher) : List (Pairs Text Text) :=
  let named := [m.cleanOverrides, byName m.register, byLabel m.register]
  if m.namesAlone then
    named ++ [withoutVocabulary (byName m.register), withoutVocabulary (byLabel m.register)]
  else named

/-- The term under a key. A key without term counts as missing. -/
def lookup (key : Text) (list : Pairs Text Text) : Option Text :=
  (Pairs.get? key list).bind fun term => if term = [] then none else some term

/-- The keys in lower case; of two that are equal then, the first one stays. -/
def lowered (list : Pairs Text Text) : Pairs Text Text :=
  list.map fun p => (lower p.1, p.2)

def match? (m : FieldMatcher) (field : Text) : Option Text :=
  let name := cleanName field
  m.lists.findSome? fun list =>
    match lookup name list with
    | some term => some term
    | none => lookup (lower name) (lowered list)

end FieldMatcher
end Crosswalk
