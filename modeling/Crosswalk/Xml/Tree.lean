import Crosswalk.Xml.Canonical

/-!
# Places of a document

The places of a document are numbered in document order: the document itself, then each element,
its attributes and its children. A place knows its parent and the last place below it, so the
places below it follow it up to that one.

* `Tree.ofDocument d`: the places of a document.
* `Place.content`: the characters at a place.
* `Place.canonical`: the place as canonical xml.
-/

namespace Crosswalk.Xml

inductive Site where
  | document (nodes : List Node)
  | node (n : Node)
  | attribute (a : Attribute)

structure Place where
  index : Nat
  parent : Option Nat
  /-- The last place below this one, or the place itself. -/
  last : Nat
  site : Site
  /-- The namespaces that hold around the place. -/
  scope : Spaces

abbrev Tree := Array Place

def attributePlaces (parent next : Nat) (scope : Spaces) : List Attribute → List Place
  | [] => []
  | a :: as =>
    ⟨next, some parent, next, .attribute a, scope⟩ :: attributePlaces parent (next + 1) scope as

mutual

/-- The places of a node that is numbered `next`. -/
def placesOf (parent next : Nat) (scope : Spaces) : Node → List Place
  | .element name attributes declared children =>
    let inside := scope.merge declared
    let below := placesOfAll next (next + 1 + attributes.length) inside children
    ⟨next, some parent, next + attributes.length + below.length,
        .node (.element name attributes declared children), scope⟩ ::
      (attributePlaces next (next + 1) inside attributes ++ below)
  | n => [⟨next, some parent, next, .node n, scope⟩]

def placesOfAll (parent next : Nat) (scope : Spaces) : List Node → List Place
  | [] => []
  | n :: ns =>
    let here := placesOf parent next scope n
    here ++ placesOfAll parent (next + here.length) scope ns

end

def Tree.ofDocument (d : Document) : Tree :=
  let below := placesOfAll 0 1 [] d.nodes
  (⟨0, none, below.length, .document d.nodes, []⟩ :: below).toArray

namespace Place

def content (p : Place) : Text :=
  match p.site with
  | .document nodes => Node.contents nodes
  | .node n => n.content
  | .attribute a => a.value

def isAttribute (p : Place) : Bool :=
  match p.site with
  | .attribute _ => true
  | _ => false

def node? (p : Place) : Option Node :=
  match p.site with
  | .node n => some n
  | _ => none

def isElement (p : Place) : Bool := p.node?.any Node.isElement

/-- The name of an element or of an attribute. -/
def name? (p : Place) : Option QName :=
  match p.site with
  | .document _ => none
  | .node n => n.name?
  | .attribute a => some a.name

/-- An element as canonical xml, any other place as its characters. -/
def canonical (p : Place) : Text :=
  match p.site with
  | .node (.element name attributes declared children) =>
    Xml.canonical p.scope (.element name attributes declared children)
  | _ => p.content

end Place

namespace Tree

/-- The root element. -/
def root? (t : Tree) : Option Place := t.find? fun p => p.parent == some 0 && p.isElement

/-- The namespaces that are declared anywhere, each by its first declaration. The default
namespace has no short name and is left out. -/
def spaces (t : Tree) : Spaces :=
  t.foldl (fun found p =>
    match p.node? with
    | some (.element _ _ declared _) =>
      declared.foldl (fun found s => if s.1 = [] then found else found.putNew s.1 s.2) found
    | _ => found) []

end Tree
end Crosswalk.Xml
