import Crosswalk.Calendar.Basic
import Crosswalk.Document.Value
import Crosswalk.Query.XPath.Result

/-!
# The host

What the program asks of the libraries and the machine that it runs on. They read other languages,
know the names behind codes and have so much memory; the program does with their answers what is
written here. What is proved without naming a host holds on every one.
-/

namespace Crosswalk

/-- What the program runs on. -/
class Host where
  /-- The name of a code in one of the tables of languages and countries. -/
  isoName? (table code : Text) : Option Text
  /-- The moment that a text stands for. -/
  moment? (text : Text) : Option Moment
  /-- Whether there is memory for a text of so many characters. -/
  holds (length : Nat) : Bool
  /-- The document in xml that a text is, with its comments or without them. -/
  xml? (comments : Bool) (text : Text) : Option Xml.Document
  /-- What a path of JMESPath gives for a value, if it can be read and evaluated. -/
  jmes? (path : Text) (v : Value) : Option Value
  /-- The values that a path of JSONPath leads to, if it can be read. -/
  jsonPath? (path : Text) (v : Value) : Option (List Value)
  /-- What a path of XPath gives for a place of a document, if it can be read and evaluated; its
  short names of namespaces are those of `spaces`. -/
  xpath? (spaces : Xml.Spaces) (t : Xml.Tree) (path : Text) (place : Nat) : Option XPath.Result

end Crosswalk
