import Crosswalk.Xml.Tree

/-!
# Nodes as documents of their own

An element that leaves its document takes along the namespaces that it uses and that were declared
around it, and the text that follows it.

* `Tree.detach t i`: the node at a place as a document.
-/

namespace Crosswalk.Xml

/-- A name's namespace among those that an element uses but has not declared. -/
def needSpace (declared needed : Spaces) (n : QName) : Spaces :=
  if n.uri = [] ∨ n.short = "xml" ∨ Pairs.has n.short declared then needed
  else needed.putNew n.short n.uri

mutual

/-- The namespaces that a node uses and that `declared` lacks, in document order. -/
def neededSpaces (declared needed : Spaces) : Node → Spaces
  | .element name attributes own children =>
    let inside := declared.merge own
    let names := name :: attributes.map (·.name)
    neededSpacesOfAll inside (names.foldl (needSpace inside) needed) children
  | _ => needed

def neededSpacesOfAll (declared needed : Spaces) : List Node → Spaces
  | [] => needed
  | n :: ns => neededSpacesOfAll declared (neededSpaces declared needed n) ns

end

/-- A node that declares all the namespaces it uses. -/
def Node.closed (n : Node) : Node :=
  match n with
  | .element name attributes own children =>
    .element name attributes (own ++ neededSpaces [] [] n) children
  | n => n

/-- The text that follows a place before the next node beside it. -/
def Tree.followingText (t : Tree) (p : Place) : List Node :=
  match t[p.last + 1]? with
  | some q => if q.parent = p.parent then (q.node?.filter Node.isText).toList else []
  | none => []

/-- The node of a place as a document of its own. -/
def Tree.detach (t : Tree) (p : Place) : Option Document :=
  p.node?.map fun n => ⟨n.closed :: t.followingText p⟩

end Crosswalk.Xml
