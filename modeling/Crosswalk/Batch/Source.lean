import Crosswalk.Json.Reader
import Crosswalk.Query.Backend
import Crosswalk.Store.Files
import Crosswalk.Xml.Detach

/-!
# Source files

The ending of a file tells how its documents are written: json, json lines or xml.

* `Files.documents`: the documents of a source file. A list of json is one document for each item;
  an xml file is one document, or one for each node that a path finds.
-/

namespace Crosswalk

open Text

/-- Why a file gives no documents. -/
inductive SourceFault where
  | missing (p : Path)
  | unsupported (p : Path)
  | notJson
  | notXml
  | notRecords
  deriving DecidableEq

/-- The words for a fault, unless it is in what the file holds. -/
def SourceFault.message? : SourceFault → Option Text
  | .missing p => some ("[Errno 2] No such file or directory: '" ++ p.text ++ "'")
  | .unsupported p => some ("Unsupported source file: " ++ p.text)
  | .notRecords => some "Invalid expression"
  | _ => none

namespace Source

/-- The items of a list, or the value alone. -/
def itemsOrSelf : Value → List Value
  | .list items => items
  | v => [v]

def ofJson (s : Text) : Except SourceFault (List SourceDocument) :=
  match Json.read? s with
  | some v => .ok ((itemsOrSelf v).map .data)
  | none => .error .notJson

/-- One document for each line that is not blank. -/
def ofJsonLines (s : Text) : Except SourceFault (List SourceDocument) :=
  ((cutsAt (· == '\n') s).filter fun line => !isBlankText line).mapM fun line =>
    match Json.read? line with
    | some v => .ok (.data v)
    | none => .error .notJson

/-- A node that is found as a document: a text is data, any other node a tree. -/
def ofPlace (t : Xml.Tree) (p : Xml.Place) : Option SourceDocument :=
  match p.site with
  | .document _ => none
  | .attribute a => some (.data (.str a.value))
  | .node (.text s) => some (.data (.str s))
  | .node _ => (t.detach p).map .tree

/-- The documents that a path finds from the root element; its names have no namespaces. A text is
one document for each character. -/
def ofRecords [Host] (d : Xml.Document) (path : Text) : Except SourceFault (List SourceDocument) :=
  let t := Xml.Tree.ofDocument d
  match t.root?.bind fun root => Host.xpath? [] t path root.index with
  | some (.nodes places) =>
    .ok (places.filterMap fun i => (XPath.placeAt t i).bind (ofPlace t))
  | some (.text s) => .ok (s.map fun c => .data (.str [c]))
  | _ => .error .notRecords

def ofXml [Host] (recordPath : Option Text) (s : Text) : Except SourceFault (List SourceDocument) :=
  match Host.xml? true s with
  | none => .error .notXml
  | some d =>
    match recordPath with
    | some (c :: path) => ofRecords d (c :: path)
    | _ => .ok [.tree d]

end Source

/-- What a file that must be there gives. -/
def Files.source (files : Files) (p : Path) (f : Text → Except SourceFault (List SourceDocument)) :
    Except SourceFault (List SourceDocument) :=
  match files.raw? p with
  | none => .error (.missing p)
  | some s => f s

def Files.documents [Host] (files : Files) (p : Path) (recordPath : Option Text) :
    Except SourceFault (List SourceDocument) :=
  if p.ending = ".jsonl" ∨ p.ending = ".ndjson" then
    files.source p fun s => Source.ofJsonLines (unifyLines s)
  else if p.ending = ".json" then files.source p fun s => Source.ofJson (unifyLines s)
  else if p.ending = ".xml" then files.source p (Source.ofXml recordPath)
  else .error (.unsupported p)

end Crosswalk
