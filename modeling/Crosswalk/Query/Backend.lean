import Crosswalk.Host
import Crosswalk.Mapping.Entry
import Crosswalk.Query.Dotted
import Crosswalk.Query.XPath.Axes

/-!
# Queries on documents

A backend reads a document with the paths of one querier.

* `Found`: what a path finds, a value or a node of an xml document.
* `Backend.ofDocument`: the backend of a querier, or why it cannot read the document.
* `Backend.extract`: all that a path finds, in order. A path that cannot be read finds nothing.
* `Backend.firstText`: the first scalar or node that a path finds, as a text.
-/

namespace Crosswalk

open Text

/-! ## Documents and what is found in them -/

/-- A document to convert: nested data, where a text may hold xml, or an xml tree. -/
inductive SourceDocument where
  | data (v : Value)
  | tree (d : Xml.Document)

inductive Found where
  | value (v : Value)
  | node (p : Xml.Place)

namespace Found

/-- A scalar or a node as a text; a list or a map has none. -/
def text? : Found → Option Text
  | .value v => if v.isScalar then some v.scalarText else none
  | .node p => some p.content

def isNode : Found → Bool
  | .node _ => true
  | _ => false

end Found

/-! ## Backends -/

/-- Why a document cannot be read. -/
inductive BackendFault where
  /-- What the reader of xml says beside that is left out. -/
  | invalidXml
  | notXml (kind : Text)
  deriving DecidableEq

def BackendFault.message : BackendFault → Text
  | .invalidXml => "Invalid xml document"
  | .notXml kind => "XPath requires a xml document, not " ++ kind

inductive Backend where
  | dotted (d : Dotted)
  | jmes (document : Value)
  | jsonPath (document : Value)
  | xpath (t : Xml.Tree) (root : Nat)

/-- The kinds of values by the names that messages use. -/
def Value.kindName : Value → Text
  | .null => "NoneType"
  | .bool _ => "bool"
  | .int _ => "int"
  | .float _ => "float"
  | .str _ => "str"
  | .list _ => "list"
  | .map _ => "dict"

namespace Backend

/-- Blanks that may stand around a document. -/
def isOuterBlank (c : Char) : Bool := c == ' ' || (0x09 ≤ c.toNat && c.toNat ≤ 0x0D)

def ofTree (d : Xml.Document) : Except BackendFault Backend :=
  let t := Xml.Tree.ofDocument d
  match t.root? with
  | some root => .ok (.xpath t root.index)
  | none => .error .invalidXml

/-- The data of a document; an xml tree has none. -/
def dataOf : SourceDocument → Value
  | .data v => v
  | .tree _ => .null

def ofDocument [Host] (q : Querier) (document : SourceDocument) (columns : Columns) :
    Except BackendFault Backend :=
  match q with
  | .jsdot => .ok (.dotted (.ofDocument (dataOf document) columns))
  | .jmespath => .ok (.jmes (dataOf document))
  | .jsonpath => .ok (.jsonPath (dataOf document))
  | .xpath =>
    match document with
    | .tree d => ofTree d
    | .data (.str s) =>
      match Host.xml? true (trimOf isOuterBlank s) with
      | some d => ofTree d
      | none => .error .invalidXml
    | .data v => .error (.notXml v.kindName)

/-- A node that is found: attributes and texts are values, and a document is nothing. -/
def foundAt (p : Xml.Place) : Option Found :=
  match p.site with
  | .document _ => none
  | .node (.text s) => some (.value (.str s))
  | .node _ => some (.node p)
  | .attribute a => some (.value (.str a.value))

def foundText (s : Text) : List Found := if s = [] then [] else [.value (.str s)]

/-- What a result of XPath finds. A truth value finds `1` or nothing. -/
def foundBy (t : Xml.Tree) : XPath.Result → List Found
  | .nodes places => places.filterMap fun i => (XPath.placeAt t i).bind foundAt
  | .bool b => if b then foundText ['1'] else []
  | .number x => if x.isNan then [] else foundText x.plainText
  | .text s => foundText s

/-- A result as a list of values: a list without its nulls, one value, or none for null and the
empty text. -/
def valuesOf : Value → List Value
  | .null => []
  | .str [] => []
  | .list vs => vs.filter fun v => !v.isNull
  | v => [v]

/-- The value that a query starts from. -/
def startValue (document : Value) : Option Found → Value
  | some (.value v) => v
  | _ => document

def startPlace (root : Nat) : Option Found → Nat
  | some (.node p) => p.index
  | _ => root

/-- All that a path finds, from a context or from the whole document. An empty path finds
nothing. -/
def extract [Host] (b : Backend) (path : Text) (context : Option Found) : List Found :=
  if path = [] then []
  else
    match b with
    | .dotted d => (d.query path).map .value
    | .jmes document =>
      (((Host.jmes? path (startValue document context)).map valuesOf).getD []).map .value
    | .jsonPath document =>
      (((Host.jsonPath? path (startValue document context)).map fun vs =>
        valuesOf (.list vs)).getD []).map .value
    | .xpath t root =>
      ((Host.xpath? t.spaces t path (startPlace root context)).map (foundBy t)).getD []

def firstText [Host] (b : Backend) (path : Text) (context : Option Found) : Text :=
  ((b.extract path context).findSome? Found.text?).getD []

end Backend
end Crosswalk
