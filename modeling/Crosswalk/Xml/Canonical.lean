import Crosswalk.Xml.Node
import Crosswalk.Text.Basic

/-!
# Canonical xml

One way to write an element: its namespaces, then its attributes in order of their namespace and
name, no empty tags, and references for the characters that are marks. All namespaces in scope
stand on the outermost element; further in, only those that change.
-/

namespace Crosswalk.Xml

def escapeText (s : Text) : Text :=
  s.flatMap fun c =>
    if c = '&' then "&amp;"
    else if c = '<' then "&lt;"
    else if c = '>' then "&gt;"
    else if c = '\r' then "&#xD;"
    else [c]

def escapeValue (s : Text) : Text :=
  s.flatMap fun c =>
    if c = '&' then "&amp;"
    else if c = '<' then "&lt;"
    else if c = '"' then "&quot;"
    else if c = '\t' then "&#x9;"
    else if c = '\n' then "&#xA;"
    else if c = '\r' then "&#xD;"
    else [c]

def writeAttribute (name value : Text) : Text :=
  ' ' :: name ++ '=' :: '"' :: escapeValue value ++ ['"']

def writeSpace (short uri : Text) : Text :=
  writeAttribute (if short = [] then "xmlns" else "xmlns:" ++ short) uri

/-- The namespaces of an element that are not written around it. An empty default namespace is
written only where another one holds. -/
def newSpaces (written inside : Spaces) : Spaces :=
  (inside.filter fun p =>
    Pairs.get? p.1 written != some p.2 &&
      !(p.1 == [] && p.2 == [] && (Pairs.get? [] written).all (· == []))).mergeSort
    fun a b => a.1.le b.1

def attributeLe (a b : Attribute) : Bool :=
  if a.name.uri = b.name.uri then a.name.base.le b.name.base
  else a.name.uri.le b.name.uri

mutual

/-- A node inside elements whose namespaces are `scope`, of which `written` stand there. -/
def writeNode (written scope : Spaces) : Node → Text
  | .element name attributes declared children =>
    let inside := scope.merge declared
    let tag := name.written
    '<' :: tag ++ (newSpaces written inside).flatMap (fun p => writeSpace p.1 p.2) ++
      (attributes.mergeSort attributeLe).flatMap (fun a => writeAttribute a.name.written a.value) ++
      '>' :: writeNodes inside inside children ++ '<' :: '/' :: tag ++ ['>']
  | .text s => escapeText s
  | .comment s => "<!--" ++ s ++ "-->"
  | .instruction target data =>
    "<?" ++ target ++ (if data = [] then [] else ' ' :: data) ++ "?>"

def writeNodes (written scope : Spaces) : List Node → Text
  | [] => []
  | n :: ns => writeNode written scope n ++ writeNodes written scope ns

end

/-- An element with the namespaces in scope around it. -/
def canonical (scope : Spaces) (n : Node) : Text := writeNode [] scope n

end Crosswalk.Xml
