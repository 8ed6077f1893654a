import Crosswalk.Document.Shape

/-!
# Schemas of vocabularies

A schema lists the vocabularies with their properties, the custom vocabularies and the further
datatypes that a target knows. `Schema.ofValue` reads one from a document.
-/

namespace Crosswalk

/-- An identifier of the target, a number or a name. -/
inductive Identifier where
  | number (n : Int)
  | name (s : Text)
  deriving DecidableEq

namespace Identifier

def text : Identifier → Text
  | .number n => intText n
  | .name s => s

def value : Identifier → Value
  | .number n => .int n
  | .name s => .str s

/-- A value that is neither number nor name has the faults of both. -/
def shape : Shape Identifier
  | .int n => .ok (.number n)
  | .str s => .ok (.name s)
  | v =>
    match Shape.int v with
    | .ok n => .ok (.number n)
    | .faulty fs =>
      .faulty (fs.map (fun f => { f with place := "int" :: f.place }) ++ [⟨["str"], .notText⟩])

end Identifier

structure Property where
  id : Option Identifier
  localName : Text
  label : Text
  deriving DecidableEq

structure Vocabulary where
  leader : Text
  label : Text
  properties : List Property
  deriving DecidableEq

/-- The term of a property: the short name of its vocabulary, a colon and its local name. -/
def Vocabulary.term (v : Vocabulary) (p : Property) : Text := v.leader ++ ":" ++ p.localName

/-- A closed list of terms. -/
structure CustomVocabulary where
  id : Identifier
  label : Text
  terms : List Text
  deriving DecidableEq

structure Schema where
  includeDublinCore : Bool
  vocabularies : List Vocabulary
  customVocabularies : List CustomVocabulary
  datatypes : List Text
  deriving DecidableEq

/-! ## Reading -/

def Property.shape : Shape Property :=
  Shape.record fun ms =>
    (fun id name label _ => ⟨id, name, label⟩)
      <$> fieldOr ms "id" (Shape.optional Identifier.shape) none
      <*> field ms "local_name" Shape.text
      <*> field ms "label" Shape.text
      <*> fieldOr ms "description" (Shape.optional Shape.text) none

def Vocabulary.shape : Shape Vocabulary :=
  Shape.record fun ms =>
    (fun leader _ label properties => ⟨leader, label, properties⟩)
      <$> field ms "prefix" Shape.text
      <*> fieldOr ms "namespace_uri" (Shape.optional Shape.text) none
      <*> field ms "label" Shape.text
      <*> fieldOr ms "properties" (Shape.list Property.shape) []

def CustomVocabulary.shape : Shape CustomVocabulary :=
  Shape.record fun ms =>
    CustomVocabulary.mk
      <$> field ms "id" Identifier.shape
      <*> field ms "label" Shape.text
      <*> fieldOr ms "terms" (Shape.list Shape.text) []

def Schema.ofMembers (ms : Pairs Text Value) : Checked Schema :=
  Schema.mk
    <$> fieldOr ms "include_dublin_core" Shape.bool true
    <*> fieldOr ms "vocabularies" (Shape.list Vocabulary.shape) []
    <*> fieldOr ms "custom_vocabs" (Shape.list CustomVocabulary.shape) []
    <*> fieldOr ms "datatypes" (Shape.list Shape.text) []

end Crosswalk
