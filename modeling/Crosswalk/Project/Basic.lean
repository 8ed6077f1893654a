import Crosswalk.Project.Settings
import Crosswalk.Store.Basic
import Crosswalk.Vocabulary.Load

/-!
# Projects

A project file names directories of mappings, a vocabulary, fields and variables. Its paths start
from its own directory, and it wins over the settings of the working directory.

* `Project.load`: the project of a file.
* `Project.setting?`: a setting by its name, whose steps lead into nested maps.
* `Workspace`: a project with the settings around it.
-/

namespace Crosswalk

open Text

structure Project where
  name : Text
  version : Text
  description : Option Text
  directories : Pairs Text Text
  vocabulary : Option Text
  fieldMap : Pairs Text Text
  vars : Pairs Text Value
  settings : Pairs Text Value

/-- Why a project cannot be used. -/
inductive ProjectFault where
  | settings (faults : List Fault)
  | project (fault : FileFault)
  | vocabulary (fault : FileFault)
  deriving DecidableEq

/-- The words for what is wrong with a file, unless they list what is wrong with its data. -/
def FileFault.message? (what : Text) : FileFault → Option Text
  | .missing path => some (what ++ " file not found: " ++ path)
  | .directory path => some ("[Errno 21] Is a directory: '" ++ path ++ "'")
  | .yaml fault => some fault.message
  | .invalid _ => none

def ProjectFault.message? : ProjectFault → Option Text
  | .settings _ => none
  | .project fault => fault.message? "Configuration"
  | .vocabulary fault => fault.message? "Vocabulary"

namespace Project

def ofMembers (ms : Pairs Text Value) : Checked Project :=
  Project.mk
    <$> field ms "name" Shape.text
    <*> fieldOr ms "version" Shape.text "1.0.0"
    <*> fieldOr ms "description" (Shape.optional Shape.text) none
    <*> fieldOr ms "mapping_dirs" (Shape.map Shape.text) []
    <*> fieldOr ms "vocabulary" (Shape.optional Shape.text) none
    <*> fieldOr ms "field_map" (Shape.map Shape.text) []
    <*> fieldOr ms "variables" (Shape.map Shape.any) []
    <*> fieldOr ms "settings" (Shape.map Shape.any) []

def load (files : Files) (path : Path) : Except FileFault Project :=
  files.record path.text ofMembers

/-- The value that names lead to, each a member of the map before. -/
def follow? : List Text → Value → Option Value
  | [], v => some v
  | name :: names, v => (v.get? name).bind (follow? names)

/-- A setting by the names on the way to it, with points between them. -/
def setting? (p : Project) (key : Text) : Option Value :=
  follow? (cutsAt (· == '.') key) (.map p.settings)

end Project

/-! ## Workspaces -/

structure Workspace where
  settings : Settings
  project : Project
  /-- Where the project file is. -/
  path : Path

namespace Workspace

def load (files : Files) (path : Path) : Except ProjectFault Workspace :=
  match Settings.ofFiles files with
  | .faulty fs => .error (.settings fs)
  | .ok settings =>
    match Project.load files path with
    | .error e => .error (.project e)
    | .ok project => .ok ⟨settings, project, path⟩

/-- A path of the project file, from its directory. -/
def place (w : Workspace) (path : Text) : Path := w.path.parent.join (.ofText path)

/-- The path of the vocabulary, the project's own before the one of the settings. -/
def vocabularyPath (w : Workspace) : Option Text :=
  let own := w.project.vocabulary.filter (· != [])
  (own.or (w.settings.vocabularyPath.filter (· != []))).map fun path => (w.place path).text

def register (w : Workspace) (files : Files) : Except ProjectFault Register :=
  ((Schema.load files w.vocabularyPath).map Register.ofSchema).mapError .vocabulary

/-- The directories of the settings, and over them those of the project. -/
def directories (w : Workspace) : Pairs Text Path :=
  w.settings.directories.merge (w.project.directories.map fun p => (p.1, w.place p.2))

def store (w : Workspace) (files : Files) : Store :=
  { Store.empty with directories := w.directories, files := files }

end Workspace
end Crosswalk
