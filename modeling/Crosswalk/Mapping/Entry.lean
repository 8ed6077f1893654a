import Crosswalk.Destination.Descriptor
import Crosswalk.Template.Modifier

/-!
# Entries of a mapping

An entry is a rule, which reads a source and fills a destination, or a problem that stands in its
place.

* `Problem.message`: what is said about a problem.
* `Problem.isFatal`: an unknown field spoils its own entry alone.
-/

namespace Crosswalk

/-- The languages of paths. -/
inductive Querier where
  | jsdot
  | jmespath
  | jsonpath
  | xpath
  deriving DecidableEq

namespace Querier

def all : List Querier := [.jsdot, .jmespath, .jsonpath, .xpath]

def name : Querier → Text
  | .jsdot => "jsdot"
  | .jmespath => "jmespath"
  | .jsonpath => "jsonpath"
  | .xpath => "xpath"

def ofName? (s : Text) : Option Querier := all.find? fun q => q.name == s

end Querier

structure Source where
  querier : Querier
  path : Text
  deriving DecidableEq

structure Rule where
  /-- Without a source the rule is filled from the variables. -/
  source : Option Source
  destination : Destination
  modifier : Modifier
  deriving DecidableEq

inductive Problem where
  | unnamedSection
  | unmanagedSection (name : Text)
  | notKeyValue (line : Text)
  | unmanagedQuerier (name : Text)
  | unsplitLine (line : Text)
  | lineWithoutSource (line : Text)
  | lineWithoutDestination (line : Text)
  | invalidDestination (line destination : Text)
  | unknownField (e : UnknownField)
  | mapWithoutPath (index : Nat)
  | mapWithPaths (index : Nat)
  | mapWithoutDestination (index : Nat)
  /-- The text is no xml. What the reader of xml says beside that, with the line and the column, is
  left out, here and in the message. -/
  | invalidXml
  | missingBase (mapper : Text)
  deriving DecidableEq

namespace Problem

def message : Problem → Text
  | .unnamedSection => "A section should have a name."
  | .unmanagedSection name => "The section \"" ++ name ++ "\" is not managed."
  | .notKeyValue line => "The line \"" ++ line ++ "\" is not a key/value pair."
  | .unmanagedQuerier name => "The querier \"" ++ name ++ "\" is not managed."
  | .unsplitLine line => "The map \"" ++ line ++ "\" has no source or destination."
  | .lineWithoutSource line => "The map \"" ++ line ++ "\" has no source."
  | .lineWithoutDestination line => "The map \"" ++ line ++ "\" has no destination."
  | .invalidDestination line destination =>
    "The map \"" ++ line ++ "\" has an invalid destination \"" ++ destination ++ "\"."
  | .unknownField e => e.message
  | .mapWithoutPath i => "The map \"" ++ natText i ++ "\" has no path."
  | .mapWithPaths i => "The map \"" ++ natText i ++ "\" has more than one path."
  | .mapWithoutDestination i => "The map \"" ++ natText i ++ "\" has no destination."
  | .invalidXml => "The xml string is not a valid xml"
  | .missingBase mapper => "The base mapper \"" ++ mapper ++ "\" is not found."

def isFatal : Problem → Bool
  | .unknownField _ => false
  | _ => true

end Problem

inductive Entry where
  | rule (r : Rule)
  | faulty (p : Problem)
  deriving DecidableEq

namespace Entry

def rule? : Entry → Option Rule
  | .rule r => some r
  | .faulty _ => none

def problem? : Entry → Option Problem
  | .rule _ => none
  | .faulty p => some p

/-- Whether the entry reads this path. -/
def reads (path : Text) (e : Entry) : Bool :=
  (e.rule?.bind Rule.source).any fun s => s.path == path

def problems (es : List Entry) : List Problem := es.filterMap problem?

end Entry
end Crosswalk
