import Crosswalk.Mapping.Config
import Crosswalk.Query.Backend
import Crosswalk.Template.Render

/-!
# Values of entries

An entry writes one value for each thing that its path finds, without repetitions. A raw entry, or
one without source, writes a single value from the variables.

* `Shared`: what the entries of one conversion leave to each other.
* `Rule.values`: the values that a rule writes for a document.
* `Entry.values`: the same for an entry; a faulty one writes nothing.
-/

namespace Crosswalk

/-- Why a conversion stops. -/
inductive Failure where
  | notWhole (why : Filter.NotWhole)
  | backend (fault : BackendFault)
  /-- A column is named by a template that is not resolved. -/
  | templateColumn
  deriving DecidableEq

/-- The most characters of a text that a message about a whole number shows. -/
def shownLength : Nat := 200

def Filter.NotWhole.message : Filter.NotWhole → Text
  | .numeral text =>
    "invalid literal for int() with base 10: " ++ (Value.quotedText text).take shownLength
  | .separated text => "could not convert string to float: " ++ Value.quotedText text
  | .digits count =>
    "Exceeds the limit (" ++ natText maxDigits ++ " digits) for integer string conversion: " ++
      "value has " ++ natText count ++
      " digits; use sys.set_int_max_str_digits() to increase the limit"
  | .limit => "int too large to convert to C ssize_t"
  | .memory _ => []

def Failure.message : Failure → Text
  | .notWhole why => why.message
  | .backend fault => fault.message
  | .templateColumn => "unhashable type: 'list'"

/-- What a conversion gives, unless it stops. -/
abbrev Converted (α : Type) := Except Failure α

/-! ## What entries share -/

/-- A document as it is queried, with the backends that were opened for it. -/
structure Queries where
  document : SourceDocument
  columns : Columns
  opened : Pairs Querier Backend

def Queries.ofDocument (document : SourceDocument) (columns : Columns) : Queries :=
  ⟨document, columns, []⟩

/-- Whether a dotted path cannot be read, since a column is named by a template. -/
def Queries.asksTemplate (q : Queries) : Bool :=
  q.columns.asksTemplate (Backend.dataOf q.document).flatten

/-- The backend of a querier, which is opened once. One that cannot be opened is tried again. -/
def Queries.open? [Host] (q : Queries) (querier : Querier) :
    Except BackendFault (Backend × Queries) :=
  match Pairs.get? querier q.opened with
  | some b => .ok (b, q)
  | none =>
    (Backend.ofDocument querier q.document q.columns).map fun b =>
      (b, { q with opened := q.opened.put querier b })

/-- What the entries of one conversion share: the context, where `value` is bound anew for each
thing that is read, and the queries, which open backends as they are needed. -/
structure Shared where
  context : Context
  queries : Queries

/-- A part of a conversion. -/
abbrev Sharing (α : Type) := StateT Shared Converted α

/-! ## Subjects -/

/-- Scalars and nodes are read by entries; lists, maps and null are not. -/
def Found.isUsable : Found → Bool
  | .value v => v.isScalar && !v.isNull
  | .node _ => true

def Subject.ofFound : Found → Subject
  | .value v => .ofValue v
  | .node p => ⟨true, p.content, p.canonical, some p.content⟩

/-- The place from which the queries of a template start: the node that is read. -/
def Found.context (f : Found) : Option Found := if f.isNode then some f else none

/-! ## Rules -/

namespace Rule

/-- Whether nodes are written as xml. -/
def writesXml (r : Rule) (querier : Querier) : Bool :=
  querier == .xpath && r.destination.datatypes.head? == some ("xml" : Text)

/-- The text of a modifier in a given context. -/
def evaluate [Host] (m : Modifier) (subject : Subject) (context : Context) (lookup : Lookup)
    (asXml : Bool) : Converted (Option Text) :=
  (m.evaluate subject context lookup asXml).mapError .notWhole

/-- The text of a modifier in the shared context. A template binds `value` there. -/
def evaluateShared [Host] (m : Modifier) (subject : Subject) (lookup : Lookup) (asXml : Bool) :
    Sharing (Option Text) := do
  if !m.isLiteral then
    modify fun s => { s with context := s.context.bind subject }
  let s ← get
  evaluate m subject s.context lookup asXml

/-- The shared backend of a querier, if the document can be read with it. -/
def openBackend [Host] (querier : Querier) : Sharing (Option Backend) := do
  let s ← get
  match s.queries.open? querier with
  | .error _ => pure none
  | .ok (b, queries) =>
    set { s with queries := queries }
    pure (some b)

/-- The value that is built from the variables alone. -/
def defaultValues [Host] (r : Rule) : Sharing (List Text) := do
  let written ← evaluateShared r.modifier .none none false
  pure written.toList

/-- What the rule writes for one thing that its path finds. -/
def valueOf [Host] (r : Rule) (querier : Querier) (b : Backend) (found : Found) :
    Sharing (Option Text) :=
  evaluateShared r.modifier (.ofFound found)
    (some fun path => b.firstText path found.context) (r.writesXml querier)

/-- The values for all that a source finds. A document that its querier cannot read has none. -/
def sourceValues [Host] (r : Rule) (s : Source) : Sharing (List Text) := do
  match ← openBackend s.querier with
  | none => pure []
  | some b =>
    let written ← ((b.extract s.path none).filter Found.isUsable).mapM (r.valueOf s.querier b)
    pure (distinct ((written.filterMap id).filter (· != [])))

def values [Host] (r : Rule) : Sharing (List Text) :=
  match r.modifier.raw, r.source with
  | none, some s => r.sourceValues s
  | _, _ => r.defaultValues

end Rule

/-! ## Entries -/

namespace Entry

def values [Host] (e : Entry) : Sharing (List Text) :=
  match e with
  | .rule r => r.values
  | .faulty _ => pure []

/-- An entry that is filled from the variables, whatever its source. -/
def defaultValues [Host] (e : Entry) : Sharing (List Text) :=
  match e with
  | .rule r => r.defaultValues
  | .faulty _ => pure []

/-- Whether the entry reads the document by dotted paths. -/
def readsDotted : Entry → Bool
  | .rule r => r.modifier.raw.isNone && r.source.any fun s => s.querier == .jsdot
  | .faulty _ => false

def field? : Entry → Option Text
  | .rule r => some r.destination.field
  | .faulty _ => none

end Entry
end Crosswalk
