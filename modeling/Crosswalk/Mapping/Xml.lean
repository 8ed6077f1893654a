import Crosswalk.Host
import Crosswalk.Mapping.Lines

/-!
# Mappings written in xml

The root holds `info` and `params` with settings, one `map` for each entry, and `table`s of codes
and labels. A map reads `from` a path, fills a field `to`, and may change values by a `mod`.

* `Entry.ofMap`: the entry of a map.
* `Config.ofXml`: the whole mapping.
-/

namespace Crosswalk

open Text Xml

/-- Settings by the local names of the elements below one of the root. -/
def settingsOf (root : Node) (section_ : Text) : Pairs Text Text :=
  match root.child? section_ with
  | none => []
  | some parent =>
    Pairs.ofList (parent.children.filterMap fun n => n.name?.map fun name =>
      (name.base, n.leadingText))

/-- An attribute that is not empty. -/
def Xml.Node.filled? (name : Text) (n : Node) : Option Text :=
  (n.attribute? name).bind Template.nonEmpty

/-! ## Entries -/

/-- The paths of an element, at most one for each querier. -/
def pathsOf (source : Node) : List Source :=
  Querier.all.filterMap fun q => (source.filled? q.name).map fun path => ⟨q, path⟩

/-- What a map reads, when it reads something. -/
def sourceOf (index : Nat) (element : Node) : Except Problem (Option Source) :=
  match element.child? "from" with
  | none => .ok none
  | some source =>
    match pathsOf source with
    | [] => .error (.mapWithoutPath index)
    | [s] => .ok (some s)
    | _ => .error (.mapWithPaths index)

/-- The texts around a template stand outside of those of its pattern. -/
def Modifier.around (m : Modifier) (before after : Text) : Modifier :=
  { m with
    prepend := Template.nonEmpty (before ++ m.prepend.getD [])
    append := Template.nonEmpty (m.append.getD [] ++ after) }

def modifierOf (mod : Option Node) : Modifier :=
  match mod with
  | none => .empty
  | some n =>
    match n.filled? "raw", n.filled? "val" with
    | some raw, _ => .ofRaw raw
    | none, some val => .ofVal val
    | none, none =>
      let compiled := Template.compile? (n.attribute? "pattern")
      if compiled.raw.isSome || compiled.val.isSome then compiled
      else
        compiled.around ((n.attribute? "prepend").getD []) ((n.attribute? "append").getD [])

/-- A modifier as the pattern of a descriptor. -/
def Modifier.written (m : Modifier) : Text :=
  match m.raw, m.val with
  | some raw, _ => raw
  | none, some val => val
  | none, none => m.prepend.getD [] ++ m.pattern.getD [] ++ m.append.getD []

/-- The visibility that an attribute names, if it is one. -/
def visibilityOf (target : Node) : Option Visibility :=
  (target.attribute? "visibility").bind Visibility.ofText?

/-- The destination of a field and the options beside it. -/
def destinationOf (r : Resolver) (target : Node) (field : Text) (m : Modifier) :
    Except UnknownField Destination :=
  (r.build field (readDatatypes ((target.attribute? "datatype").getD []))
    (target.attribute? "language") (visibilityOf target) none).map fun d =>
      { d with written := some (d.write m.written) }

/-- The trimmed field that a map fills. -/
def fieldOf (target : Option Node) : Text :=
  trim ((target.bind fun n => n.attribute? "field").getD [])

def Entry.ofMap (r : Resolver) (index : Nat) (element : Node) : Entry :=
  match sourceOf index element with
  | .error p => .faulty p
  | .ok source =>
    match element.child? "to", fieldOf (element.child? "to") with
    | some target, c :: field =>
      let m := modifierOf (element.child? "mod")
      match destinationOf r target (c :: field) m with
      | .ok d => .rule ⟨source, d, m⟩
      | .error e => .faulty (.unknownField e)
    | _, _ => .faulty (.mapWithoutDestination index)

/-! ## Tables -/

/-- The terms of the first list of a table. -/
def termsOf (table : Node) : Pairs Text Text :=
  match table.child? "list" with
  | none => []
  | some terms =>
    (terms.childrenNamed "term").filterMap fun n =>
      (n.filled? "code").map fun code => (code, n.leadingText)

/-- Terms put into the table of a name; without terms there is no table. -/
def addTerms (tables : Pairs Text (Pairs Text Text)) (table : Node) :
    Pairs Text (Pairs Text Text) :=
  match trim ((table.attribute? "code").getD []), termsOf table with
  | [], _ => tables
  | _, [] => tables
  | code, terms => tables.put code (((Pairs.get? code tables).getD []).merge terms)

/-! ## The mapping -/

/-- The maps of a mapping, numbered from one. -/
def mapsOf (root : Node) : List (Nat × Node) :=
  let maps := root.childrenNamed "map"
  ((List.range maps.length).map (· + 1)).zip maps

def readsNothing (element : Node) : Bool := (element.child? "from").isNone

def Config.ofRoot (r : Resolver) (name : Option Text) (root : Node) : Config :=
  let info := (settingsOf root "info").map fun p => (p.1, Template.nonEmpty (trim p.2))
  let entries := (mapsOf root).map fun p => (readsNothing p.2, Entry.ofMap r p.1 p.2)
  { info := .named name info
    params := (settingsOf root "params").map fun p => (p.1, paramValue (some p.2))
    default := (entries.filter (·.1)).map (·.2)
    mapping := (entries.filter (!·.1)).map (·.2)
    tables := (root.childrenNamed "table").foldl addTerms []
    autofillers := []
    problems :=
      (querierOf (Pairs.get? ("querier" : Text) info).join).2 ++
        Entry.problems (entries.map (·.2)) }

/-- A text that is no xml gives a problem and nothing else. -/
def Config.ofXml [Host] (r : Resolver) (name : Option Text) (text : Text) : Config :=
  match (Host.xml? false text).bind Document.root? with
  | some root => .ofRoot r name root
  | none => { Config.empty with info := .named name [], problems := [.invalidXml] }

end Crosswalk
