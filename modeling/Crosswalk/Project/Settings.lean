import Crosswalk.Document.Shape
import Crosswalk.Project.Environment
import Crosswalk.Store.Files

/-!
# Settings

The settings of a working directory come from its environment files.

* `Settings.ofFiles`: the settings of `.env` and `.env.local`, the latter of which wins.
* `Settings.directories`: the directories of mappings by their short names.
-/

namespace Crosswalk

structure Settings where
  userDirectory : Text
  moduleDirectory : Option Text
  baseDirectory : Option Text
  checkField : Bool
  maxDepth : Int
  vocabularyPath : Option Text
  deriving DecidableEq

namespace Settings

def default : Settings := ⟨"mapping", none, none, false, 20, none⟩

/-- What the names of all settings start with. -/
def leader : Text := "bik_"

/-- The environment files, each of which wins over the ones before. -/
def fileNames : List Text := [".env", ".env.local"]

/-- The environment of a working directory as members. -/
def members (env : Environment) : Pairs Text Value :=
  env.filterMap fun p => (Text.after? leader p.1).map fun name => (name, .str p.2)

def ofMembers (ms : Pairs Text Value) : Checked Settings :=
  Settings.mk
    <$> fieldOr ms "user_mapping_dir" Shape.text default.userDirectory
    <*> fieldOr ms "module_mapping_dir" (Shape.optional Shape.text) none
    <*> fieldOr ms "base_mapping_dir" (Shape.optional Shape.text) none
    <*> fieldOr ms "check_field" Shape.bool default.checkField
    <*> fieldOr ms "max_include_depth" Shape.int default.maxDepth
    <*> fieldOr ms "vocabulary_path" (Shape.optional Shape.text) none

def environment (files : Files) : Environment :=
  fileNames.foldl (fun env name =>
    match files.read? (.ofText name) with
    | some s => env.merge (Environment.ofText s)
    | none => env) []

def ofFiles (files : Files) : Checked Settings := ofMembers (members (environment files))

/-- The directories that are set; an empty one is none. -/
def directories (s : Settings) : Pairs Text Path :=
  [("user", some s.userDirectory), ("module", s.moduleDirectory),
    ("base", s.baseDirectory)].filterMap fun p =>
      (p.2.filter (· != [])).map fun path => (p.1, .ofText path)

end Settings
end Crosswalk
