import Crosswalk.Document.Shape
import Crosswalk.Store.Files
import Crosswalk.Yaml.Reader

/-!
# Data in yaml files

* `Files.record`: the data of a yaml file whose members have a known shape.
-/

namespace Crosswalk

/-- Why a file gives no data. The path of a file that is not there is kept as it was written. -/
inductive FileFault where
  | missing (path : Text)
  | directory (path : Text)
  | yaml (fault : YamlFault)
  | invalid (faults : List Fault)
  deriving DecidableEq

/-- A value that counts as nothing: a file without content has no members. -/
def Value.isNothing : Value → Bool
  | .null => true
  | .bool b => !b
  | .int n => n == 0
  | .float x => x.toInt? == some 0
  | .str s => s.isEmpty
  | .list vs => vs.isEmpty
  | .map ms => ms.isEmpty

/-- The members of the outermost map of a document. -/
def Value.outerMembers (v : Value) : Checked (Pairs Text Value) :=
  match v with
  | .map ms => .ok ms
  | v => if v.isNothing then .ok [] else .fault .notRecord

/-- The data of a value that holds members of a known shape. -/
def Value.readAs {α : Type} (v : Value) (shape : Pairs Text Value → Checked α) :
    Except FileFault α :=
  match v.outerMembers with
  | .faulty fs => .error (.invalid fs)
  | .ok ms =>
    match shape ms with
    | .faulty fs => .error (.invalid fs)
    | .ok a => .ok a

def Files.record {α : Type} (files : Files) (path : Text) (shape : Pairs Text Value → Checked α) :
    Except FileFault α :=
  match files.read? (.ofText path) with
  | some s =>
    match Yaml.read s with
    | .error e => .error (.yaml e)
    | .ok v => v.readAs shape
  | none =>
    if files.hasDirectory (.ofText path) then .error (.directory path) else .error (.missing path)

end Crosswalk
