import Crosswalk.Record.Convert

/-!
# Frames of records

A frame shows records as rows. Its columns are the fields in the order in which they come first.

* `Frame.ofRecords`: the values of a field joined with a separator; a field that a record lacks is
  missing in its row.
* `Frame.delimited`: the frame as lines of fields.
-/

namespace Crosswalk

open Text

structure Frame where
  columns : List Text
  rows : List (List (Option Text))

namespace Frame

/-! ## Records as rows -/

def fieldsOf (records : List Record) : List Text := distinct (records.flatMap Pairs.keys)

def rowOf (separator : Text) (columns : List Text) (record : Record) : List (Option Text) :=
  columns.map fun field => (Pairs.get? field record).map (joinWith separator)

def ofRecords (separator : Text) (records : List Record) : Frame :=
  let columns := fieldsOf records
  ⟨columns, records.map (rowOf separator columns)⟩

/-! ## Delimited text -/

/-- A field with a mark of the format in it stands between quotes. -/
def isPlainField (delimiter : Char) (s : Text) : Bool :=
  s.all fun c => c != delimiter && c != '"' && c != '\r' && c != '\n'

def quoteField (s : Text) : Text :=
  '"' :: ((s.flatMap fun c => if c = '"' then ['"', '"'] else [c]) ++ ['"'])

def writeField (delimiter : Char) (s : Text) : Text :=
  if isPlainField delimiter s then s else quoteField s

/-- A line of fields. One empty field alone is quoted, for a line without fields is empty. -/
def writeLine (delimiter : Char) (fields : List Text) : Text :=
  if fields = [[]] then "\"\"\n"
  else joinWith [delimiter] (fields.map (writeField delimiter)) ++ ['\n']

/-- The columns and then the rows, a line each; what is missing is empty. -/
def delimited (delimiter : Char) (f : Frame) : Text :=
  writeLine delimiter f.columns ++
    f.rows.flatMap fun row => writeLine delimiter (row.map fun s => s.getD [])

/-! ## Lemmas -/

theorem length_rows (separator : Text) (records : List Record) :
    (ofRecords separator records).rows.length = records.length := by
  simp [ofRecords]

theorem length_row {separator : Text} {records : List Record} {row : List (Option Text)}
    (h : row ∈ (ofRecords separator records).rows) :
    row.length = (ofRecords separator records).columns.length := by
  simp only [ofRecords, List.mem_map] at h
  obtain ⟨record, _, rfl⟩ := h
  simp [rowOf, ofRecords]

example : delimited ',' ⟨["a", "b"], [[some "x,y", none], [some "\"", some "z"]]⟩ =
    "a,b\n\"x,y\",\n\"\"\"\",z\n" := by decide

end Frame
end Crosswalk
