import Crosswalk.Vocabulary.Schema

/-!
# Dublin Core

The terms of Dublin Core, numbered from one in the order of a fresh installation.
-/

namespace Crosswalk

/-- Local names with their labels. -/
def dublinCoreNames : List (String × String) := [
  ("title", "Title"),
  ("creator", "Creator"),
  ("subject", "Subject"),
  ("description", "Description"),
  ("publisher", "Publisher"),
  ("contributor", "Contributor"),
  ("date", "Date"),
  ("type", "Type"),
  ("format", "Format"),
  ("identifier", "Identifier"),
  ("source", "Source"),
  ("language", "Language"),
  ("relation", "Relation"),
  ("coverage", "Coverage"),
  ("rights", "Rights"),
  ("audience", "Audience"),
  ("alternative", "Alternative Title"),
  ("tableOfContents", "Table Of Contents"),
  ("abstract", "Abstract"),
  ("created", "Date Created"),
  ("valid", "Date Valid"),
  ("available", "Date Available"),
  ("issued", "Date Issued"),
  ("modified", "Date Modified"),
  ("extent", "Extent"),
  ("medium", "Medium"),
  ("isVersionOf", "Is Version Of"),
  ("hasVersion", "Has Version"),
  ("isReplacedBy", "Is Replaced By"),
  ("replaces", "Replaces"),
  ("isRequiredBy", "Is Required By"),
  ("requires", "Requires"),
  ("isPartOf", "Is Part Of"),
  ("hasPart", "Has Part"),
  ("isReferencedBy", "Is Referenced By"),
  ("references", "References"),
  ("isFormatOf", "Is Format Of"),
  ("hasFormat", "Has Format"),
  ("conformsTo", "Conforms To"),
  ("spatial", "Spatial Coverage"),
  ("temporal", "Temporal Coverage"),
  ("mediator", "Mediator"),
  ("dateAccepted", "Date Accepted"),
  ("dateCopyrighted", "Date Copyrighted"),
  ("dateSubmitted", "Date Submitted"),
  ("educationLevel", "Audience Education Level"),
  ("accessRights", "Access Rights"),
  ("bibliographicCitation", "Bibliographic Citation"),
  ("license", "License"),
  ("rightsHolder", "Rights Holder"),
  ("provenance", "Provenance"),
  ("instructionalMethod", "Instructional Method"),
  ("accrualMethod", "Accrual Method"),
  ("accrualPeriodicity", "Accrual Periodicity"),
  ("accrualPolicy", "Accrual Policy")]

def dublinCoreTerms : List (Text × Text) := dublinCoreNames.map fun p => (p.1, p.2)

/-- Properties numbered from `n` on. -/
def numbered (n : Nat) : List (Text × Text) → List Property
  | [] => []
  | (localName, label) :: more => ⟨some (.number n), localName, label⟩ :: numbered (n + 1) more

def dublinCore : Vocabulary := ⟨"dcterms", "Dublin Core", numbered 1 dublinCoreTerms⟩

/-- The schema that knows Dublin Core alone. -/
def Schema.dublinCoreAlone : Schema := ⟨true, [dublinCore], [], []⟩

/-- Dublin Core first, unless the schema leaves it out or has a vocabulary of its short name. -/
def Schema.withDublinCore (s : Schema) : Schema :=
  if s.includeDublinCore && !(s.vocabularies.any fun v => v.leader == dublinCore.leader) then
    { s with vocabularies := dublinCore :: s.vocabularies }
  else s

example : dublinCoreTerms.length = 55 := by decide

end Crosswalk
