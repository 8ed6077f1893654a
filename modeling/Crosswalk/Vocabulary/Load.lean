import Crosswalk.Vocabulary.Register
import Crosswalk.Yaml.File

/-!
# Schemas in files

* `Schema.load files path`: the schema of a file with Dublin Core, or Dublin Core alone.
-/

namespace Crosswalk

def Schema.load (files : Files) : Option Text → Except FileFault Schema
  | none => .ok .dublinCoreAlone
  | some path => (files.record path Schema.ofMembers).map Schema.withDublinCore

end Crosswalk
