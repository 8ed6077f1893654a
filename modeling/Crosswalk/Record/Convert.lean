import Crosswalk.Record.Values

/-!
# Records

A record holds the values of each field, in the order in which the entries write them.

* `Config.resolveParams`: the parameters of a mapping, each of which may use the ones before.
* `Config.convert`: the record of a document.
* `Config.settingText`: one setting of a mapping as a text.
* `convertValue`: the text that a modifier gives for a single value.
-/

namespace Crosswalk

abbrev Record := Pairs Text (List Text)

/-! ## Variables -/

/-- A scalar as the text of a variable. -/
def Value.variableText? (v : Value) : Option Text :=
  if v.isScalar && !v.isNull then some v.scalarText else none

def Variables.ofPairs (ps : Pairs Text Value) : Variables :=
  ps.map fun p => (p.1, p.2.variableText?)

namespace Param

/-- A parameter that is no template. -/
def value : Param → Value
  | .template _ => .null
  | .bool b => .bool b
  | .text s => .str s
  | .null => .null

/-- What a parameter that is not resolved says about columns. -/
def columnChoice : Param → ColumnChoice
  | .template _ => .template
  | p => .ofValue p.value

end Param

/-- What resolved parameters say about columns. -/
def columnsOf (params : Pairs Text Value) : Columns :=
  .ofParams fun name => (Pairs.get? name params).map ColumnChoice.ofValue

namespace Config

/-! ## Parameters -/

/-- The queries of templated parameters, when there is a document. -/
def paramLookup [Host] (c : Config) (document : Option SourceDocument) : Converted Lookup :=
  match document with
  | none => .ok none
  | some d =>
    match Backend.ofDocument c.querier d .none with
    | .ok b => .ok (some fun path => b.firstText path none)
    | .error e => .error (.backend e)

/-- A text, or null when there is none. -/
def textOrNull : Option Text → Value
  | some s => .str s
  | none => .null

def resolveParam [Host] (c : Config) (document : Option SourceDocument) (vars : Variables)
    (p : Param) : Converted Value :=
  match p with
  | .template m => do
    let lookup ← c.paramLookup document
    let s ← Rule.evaluate m .none ⟨vars, c.tables⟩ lookup false
    pure (textOrNull s)
  | p => .ok p.value

/-- Parameters in order, each a variable for the next ones. -/
def resolveFrom [Host] (c : Config) (document : Option SourceDocument) :
    Variables → Pairs Text Param → Converted (Pairs Text Value)
  | _, [] => .ok []
  | vars, (name, p) :: more => do
    let v ← c.resolveParam document vars p
    let rest ← c.resolveFrom document (vars.put name v.variableText?) more
    pure ((name, v) :: rest)

def resolveParams [Host] (c : Config) (vars : Pairs Text Value) (document : Option SourceDocument) :
    Converted (Pairs Text Value) :=
  c.resolveFrom document (.ofPairs vars) c.params

/-! ## Conversion -/

/-- Values written to the field of an entry. -/
def write (record : Record) (e : Entry) (values : List Text) : Record :=
  match values, e.field? with
  | [], _ => record
  | _, none => record
  | values, some field => record.put field (((Pairs.get? field record).getD []) ++ values)

/-- The record with the values of further entries. -/
def writeAll (record : Record) (values : Entry → Sharing (List Text)) :
    List Entry → Sharing Record
  | [] => pure record
  | e :: es => do writeAll (write record e (← values e)) values es

/-- The caller's variables win over the parameters. -/
def contextOf (c : Config) (params vars : Pairs Text Value) : Context :=
  ⟨.ofPairs (params.merge vars), c.tables⟩

/-- What the first entry of a conversion finds. -/
def start (c : Config) (params vars : Pairs Text Value) (document : SourceDocument) : Shared :=
  ⟨c.contextOf params vars, .ofDocument document (columnsOf params)⟩

/-- The record that the entries write, the defaults first. -/
def build [Host] (c : Config) : Sharing Record := do
  let record ← writeAll [] Entry.defaultValues c.default
  writeAll record Entry.values c.mapping

def convert [Host] (c : Config) (vars : Pairs Text Value) (document : SourceDocument) :
    Converted Record := do
  let params ← c.resolveParams vars none
  c.build.run' (c.start params vars document)

/-! ## Settings -/

/-- The document, or null when there is none. -/
def documentOrNull (document : Option SourceDocument) : SourceDocument :=
  document.getD (.data .null)

/-- What the parameters say about columns before they are resolved. -/
def writtenColumns (c : Config) : Columns :=
  .ofParams fun name => (Pairs.get? name c.params).map Param.columnChoice

def settingText [Host] (c : Config) (section_ name : Text) (vars : Pairs Text Value)
    (document : Option SourceDocument) : Converted (Option Text) :=
  let context : Context := ⟨.ofPairs vars, c.tables⟩
  match c.setting? section_ name with
  | none => .ok none
  | some (.text s) => .ok (some s)
  | some (.param (.template m)) => do
    Rule.evaluate m .none context (← c.paramLookup document) false
  | some (.param p) => .ok (some p.value.scalarText)
  | some (.entry e) =>
    let queries := Queries.ofDocument (documentOrNull document) c.writtenColumns
    if e.readsDotted && queries.asksTemplate then .error .templateColumn
    else (e.values.run' ⟨context, queries⟩).map List.head?
  | some (.table t) => .ok (some (Value.map (t.map fun p => (p.1, .str p.2))).literal)
  | some (.autofiller _) => .ok none

end Config

/-- The text that a modifier gives for a single value, without document. -/
def convertValue [Host] (m : Modifier) (vars : Pairs Text Value)
    (tables : Pairs Text (Pairs Text Text)) (v : Value) : Converted (Option Text) :=
  Rule.evaluate m (.ofValue v) ⟨.ofPairs vars, tables⟩ none false

end Crosswalk
