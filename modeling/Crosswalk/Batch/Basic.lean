import Crosswalk.Batch.Frame
import Crosswalk.Batch.Source
import Crosswalk.Json.Writer

/-!
# Batches

A batch converts documents with one mapping and keeps all their records.

* `Batch.convert`: the records of some documents, all or none.
* `Batch.written`: the text of a file that shows the records, by the ending of its name.
-/

namespace Crosswalk

open Text

structure Batch where
  config : Config
  vars : Pairs Text Value
  records : List Record

/-- Why a batch stops. -/
inductive BatchFault where
  | source (fault : SourceFault)
  | conversion (failure : Failure)
  deriving DecidableEq

/-- The words for a fault, unless it is in what a source file holds. -/
def BatchFault.message? : BatchFault → Option Text
  | .source fault => fault.message?
  | .conversion failure => some failure.message

/-- Why the records are not written. -/
inductive ExportFault where
  | unsupported (p : Path)
  | noDirectory (p : Path)
  deriving DecidableEq

def ExportFault.message : ExportFault → Text
  | .unsupported p => "Unsupported output file: " ++ p.text
  | .noDirectory p =>
    if p.ending = ".json" then "[Errno 2] No such file or directory: '" ++ p.text ++ "'"
    else "Cannot save file into a non-existent directory: '" ++ p.parent.text ++ "'"

/-- Records as a list of maps. -/
def Record.value (r : Record) : Value := .map (r.map fun p => (p.1, .list (p.2.map .str)))

def recordsText (records : List Record) : Text :=
  Json.indented (.list (records.map Record.value))

namespace Batch

def ofConfig (c : Config) (vars : Pairs Text Value) : Batch := ⟨c, vars, []⟩

/-- The records of the documents, and the batch that keeps them. -/
def convert [Host] (b : Batch) (documents : List SourceDocument) :
    Converted (List Record × Batch) :=
  (documents.mapM (b.config.convert b.vars)).map fun records =>
    (records, { b with records := b.records ++ records })

def convertFile [Host] (b : Batch) (files : Files) (p : Path) (recordPath : Option Text) :
    Except BatchFault (List Record × Batch) :=
  match files.documents p recordPath with
  | .error e => .error (.source e)
  | .ok documents => (b.convert documents).mapError .conversion

/-- What stands between the values of a field in one cell. -/
def valueMark : Text := " | "

def frame (b : Batch) (separator : Text) : Frame := .ofRecords separator b.records

/-- The text of an output file, if its ending is known. -/
def written (b : Batch) (p : Path) : Except ExportFault Text :=
  if p.ending = ".json" then .ok (recordsText b.records)
  else if p.ending = ".tsv" then .ok ((b.frame valueMark).delimited '\t')
  else if p.ending = ".csv" then .ok ((b.frame valueMark).delimited ',')
  else .error (.unsupported p)

/-- The files with the output file, whose directory must be there. -/
def save (b : Batch) (files : Files) (p : Path) : Except ExportFault Files :=
  (b.written p).bind fun s =>
    if files.hasDirectory p.parent then .ok (files.write p s) else .error (.noDirectory p)

end Batch
end Crosswalk
