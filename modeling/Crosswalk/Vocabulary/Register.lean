import Crosswalk.Vocabulary.DublinCore

/-!
# Registers of terms

What a schema answers when a destination is resolved: the terms with their labels, the identifiers
of properties and of custom vocabularies, and the names of the datatypes.
-/

namespace Crosswalk

/-- The datatypes that every target knows. -/
def commonDatatypes : List Text := [
  "literal", "uri", "resource", "resource:item", "resource:itemset", "resource:media",
  "resource:annotation", "numeric:timestamp", "numeric:integer", "numeric:interval",
  "numeric:duration", "geography", "geography:coordinates", "geometry", "geometry:coordinates",
  "geometry:position", "boolean", "html", "xml"]

structure Register where
  /-- Terms with the labels of their vocabulary and property. -/
  terms : Pairs Text Text
  ids : Pairs Text (Option Identifier)
  customIds : Pairs Text Identifier
  datatypes : List Text

namespace Register

def properties (s : Schema) : List (Vocabulary × Property) :=
  s.vocabularies.flatMap fun v => v.properties.map fun p => (v, p)

def ofSchema (s : Schema) : Register where
  terms := Pairs.ofList ((properties s).map fun p => (p.1.term p.2, p.1.label ++ ":" ++ p.2.label))
  ids := Pairs.ofList ((properties s).map fun p => (p.1.term p.2, p.2.id))
  customIds := Pairs.ofList (s.customVocabularies.map fun c => (c.label, c.id))
  datatypes := distinct (commonDatatypes ++ s.datatypes ++
    s.customVocabularies.map fun c => ("customvocab:" : Text) ++ c.id.text)

def propertyId (r : Register) (term : Text) : Option Identifier := (Pairs.get? term r.ids).join

def customId (r : Register) (label : Text) : Option Identifier := Pairs.get? label r.customIds

def dublinCoreAlone : Register := ofSchema .dublinCoreAlone

end Register
end Crosswalk
