import Crosswalk.Text.Basic
import Crosswalk.Pairs

/-!
# Xml trees

* `Node.text`: the characters of all texts below a node.
* `Node.leadingText`: the text of an element before its first child.
* `Node.child?`, `Node.childrenNamed`: children by a name without namespace.
-/

namespace Crosswalk.Xml

/-- A name with its namespace, which is empty when there is none, and the short name that stands
for the namespace in the document. -/
structure QName where
  uri : Text
  short : Text
  base : Text
  deriving DecidableEq

/-- The name as it is written. -/
def QName.written (n : QName) : Text := if n.short = [] then n.base else n.short ++ ':' :: n.base

structure Attribute where
  name : QName
  value : Text
  deriving DecidableEq

/-- Namespaces by their short name, the default one under the empty name. -/
abbrev Spaces := Pairs Text Text

inductive Node where
  | element (name : QName) (attributes : List Attribute) (declared : Spaces) (children : List Node)
  | text (s : Text)
  | comment (s : Text)
  | instruction (target data : Text)

namespace Node

instance : Inhabited Node := ⟨.text []⟩

mutual

/-- The characters of the texts below an element, or what another node holds. -/
def content : Node → Text
  | .element _ _ _ children => contents children
  | .text s => s
  | .comment s => s
  | .instruction _ data => data

/-- Comments and instructions below an element are no part of its content. -/
def contents : List Node → Text
  | [] => []
  | .comment _ :: ns => contents ns
  | .instruction _ _ :: ns => contents ns
  | n :: ns => content n ++ contents ns

end

def isElement : Node → Bool
  | .element .. => true
  | _ => false

def isText : Node → Bool
  | .text _ => true
  | _ => false

def name? : Node → Option QName
  | .element name _ _ _ => some name
  | _ => none

def children : Node → List Node
  | .element _ _ _ ns => ns
  | _ => []

def attributes : Node → List Attribute
  | .element _ attributes _ _ => attributes
  | _ => []

/-- The value of an attribute without namespace. -/
def attribute? (name : Text) (n : Node) : Option Text :=
  (n.attributes.find? fun a => a.name.uri == [] && a.name.base == name).map (·.value)

/-- Whether a node is an element of this name, without namespace. -/
def isNamed (name : Text) (n : Node) : Bool :=
  n.name?.any fun q => q.uri == [] && q.base == name

def childrenNamed (name : Text) (n : Node) : List Node := n.children.filter (isNamed name)

def child? (name : Text) (n : Node) : Option Node := n.children.find? (isNamed name)

/-- The text of an element before its first child. -/
def leadingText (n : Node) : Text :=
  match n.children with
  | .text s :: _ => s
  | _ => []

end Node

/-- The nodes of a document: one element, with comments and instructions around it. -/
structure Document where
  nodes : List Node

def Document.root? (d : Document) : Option Node := d.nodes.find? Node.isElement

end Crosswalk.Xml
