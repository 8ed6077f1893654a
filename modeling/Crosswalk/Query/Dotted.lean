import Crosswalk.Query.Flat
import Crosswalk.Text.Basic

/-!
# Dotted paths

A dotted path is a key of a flat document. One that leads to a list of scalars reads them all, and
one after `fields[].` reads a column of a list of records.

* `Columns`: which list holds the records, and which members give the name and the value.
* `Columns.read`: the values of a flat document by column.
* `Columns.asksTemplate`: whether a template is taken for a key on the way.
* `Dotted.lookup`: what a path reads.
-/

namespace Crosswalk

open Text

/-! ## Columns -/

/-- What a parameter says about columns. -/
inductive ColumnChoice where
  | unset
  | member (key : Text)
  /-- Something that is no key. -/
  | other
  /-- A template that is not resolved, by which no record can be asked. -/
  | template
  deriving DecidableEq

def ColumnChoice.ofValue : Value → ColumnChoice
  | .null => .unset
  | .bool b => if b then .other else .unset
  | .int n => if n = 0 then .unset else .other
  | .float x => if x.same .zero then .unset else .other
  | .str [] => .unset
  | .str s => .member s
  | .list [] => .unset
  | .list _ => .other
  | .map [] => .unset
  | .map _ => .other

structure Columns where
  records : ColumnChoice
  key : ColumnChoice
  value : ColumnChoice
  deriving DecidableEq

namespace Columns

def none : Columns := ⟨.unset, .unset, .unset⟩

/-- The choices that parameters make by name. -/
def ofParams (choice : Text → Option ColumnChoice) : Columns :=
  let named := fun name => (choice name).getD .unset
  ⟨named "fields", named "fields.key", named "fields.value"⟩

/-- A record: its flat members. -/
abbrev Record := Pairs Text Value

/-- The flat records below a key, by their position or key. -/
def recordsBelow (base : Text) (flat : Pairs Text Value) : Pairs Text Record :=
  flat.foldl (fun records entry =>
    match (after? (base ++ ['.']) entry.1).bind (cutChar? '.') with
    | some (name, member) =>
      records.put name (((Pairs.get? name records).getD []).put member entry.2)
    | .none => records) []

/-- The values by column, where a column that is there already grows. -/
def gather (cells : List (Text × Value)) : Pairs Text (List Value) :=
  cells.foldl (fun m c => m.put c.1 (((Pairs.get? c.1 m).getD []) ++ [c.2])) []

def memberOf (choice : ColumnChoice) (r : Record) : Option Value :=
  match choice with
  | .member key => Pairs.get? key r
  | _ => .none

/-- The column and the value of a record that has members for both. -/
def namedCell (key value : ColumnChoice) (r : Record) : Option (Text × Value) :=
  match memberOf key r, memberOf value r with
  | some name, some v => some (name.scalarText, v)
  | _, _ => .none

/-- Whether a record is asked for a member by a template. A record is asked for the value when it
has the member that gives the name. -/
def asksTemplate (c : Columns) (flat : Pairs Text Value) : Bool :=
  match c.records with
  | .member base =>
    (recordsBelow base flat).any fun p =>
      match c.key with
      | .template => true
      | .unset => c.value == .template
      | key => (memberOf key p.2).isSome && c.value == .template
  | _ => false

/-- The values of a flat document by column: named by a member of each record, all in the column
of the member that holds them, or record by record. -/
def read (c : Columns) (flat : Pairs Text Value) : Pairs Text (List Value) :=
  match c.records with
  | .member base =>
    let records := recordsBelow base flat
    match c.key, c.value with
    | .unset, .unset => records.map fun p => (p.1, p.2.map (·.2))
    | .unset, value =>
      gather (records.filterMap fun p =>
        match value, memberOf value p.2 with
        | .member key, some v => some (key, v)
        | _, _ => .none)
    | key, value => gather (records.filterMap fun p => namedCell key value p.2)
  | _ => []

end Columns

/-! ## Paths -/

/-- A document made ready for dotted paths. -/
structure Dotted where
  flat : Pairs Text Value
  columns : Pairs Text (List Value)

namespace Dotted

def ofDocument (document : Value) (columns : Columns) : Dotted :=
  let flat := document.flatten
  ⟨flat, columns.read flat⟩

def columnMark : Text := "fields[]."

/-- The scalars at the positions of a list, up to the first position that has none. A list has no
more scalars than the document. -/
def listed (flat : Pairs Text Value) (path : Text) : List Value :=
  (((List.range flat.length).map fun i => Pairs.get? (path ++ '.' :: natText i) flat).takeWhile
    Option.isSome).filterMap id

def lookup (d : Dotted) (path : Text) : List Value :=
  match Pairs.get? path d.flat with
  | some v => if v == .str [] then [] else [v]
  | none =>
    match after? columnMark path with
    | some name => (Pairs.get? name d.columns).getD []
    | none => listed d.flat path

/-- What a path reads, without nulls. An empty path reads nothing. -/
def query (d : Dotted) (path : Text) : List Value :=
  if path = [] then [] else (d.lookup path).filter fun v => !v.isNull

end Dotted
end Crosswalk
