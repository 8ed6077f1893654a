import Crosswalk.Document.Value
import Crosswalk.Mapping.Written

/-!
# Mappings in normal form

Both ways to write a mapping lead to one form.

* `Config.section?`, `Config.setting`: a section by its name, and one setting of it.
* `Config.compose base child`: the child over its base. Settings of the child win; entries are
  joined, the base first; of those that are written alike the first one stays.
-/

namespace Crosswalk

/-- Settings that tell about the mapping. -/
structure Info where
  label : Option Text
  source : Option Text
  target : Option Text
  querier : Option Text
  mapper : Option Text
  example_ : Option Text
  /-- Settings of other names. -/
  others : Pairs Text (Option Text)
  deriving DecidableEq

inductive Param where
  | template (m : Modifier)
  | bool (b : Bool)
  | text (s : Text)
  | null
  deriving DecidableEq

/-- Entries for one external service. -/
structure Autofiller where
  service : Text
  sub : Option Text
  variant : Option Text
  label : Option Text
  mapping : List Entry
  deriving DecidableEq

structure Config where
  info : Info
  params : Pairs Text Param
  default : List Entry
  mapping : List Entry
  /-- Labels by code, by the name of the table. -/
  tables : Pairs Text (Pairs Text Text)
  autofillers : Pairs Text Autofiller
  problems : List Problem
  deriving DecidableEq

/-! ## Info -/

namespace Info

def empty : Info := ⟨none, none, none, none, none, none, []⟩

/-- The known settings, by the names that a mapping uses. -/
def known (i : Info) : Pairs Text (Option Text) := [
  ("label", i.label), ("from", i.source), ("to", i.target), ("querier", i.querier),
  ("mapper", i.mapper), ("example", i.example_)]

/-- All settings, the known ones first. -/
def pairs (i : Info) : Pairs Text (Option Text) := i.known ++ i.others

/-- The settings that have a value. -/
def present (i : Info) : Pairs Text (Option Text) := i.pairs.filter fun p => p.2.isSome

/-- Settings by name. The source and the target have a second name. -/
def ofPairs (ps : Pairs Text (Option Text)) : Info :=
  let source : Text := if Pairs.has ("from" : Text) ps then "from" else "source_format"
  let target : Text := if Pairs.has ("to" : Text) ps then "to" else "target"
  let names : List Text := ["label", source, target, "querier", "mapper", "example"]
  let value := fun (name : Text) => (Pairs.get? name ps).join
  ⟨value "label", value source, value target, value "querier", value "mapper", value "example",
    ps.filter fun p => !names.elem p.1⟩

end Info

namespace Config

def empty : Config := ⟨.empty, [], [], [], [], [], []⟩

def hasError (c : Config) : Bool := c.problems.any Problem.isFatal

def isEmpty (c : Config) : Bool :=
  c.params.isEmpty && c.default.isEmpty && c.mapping.isEmpty

/-- The querier that is named, when it is one. -/
def querier (c : Config) : Querier := (c.info.querier.bind Querier.ofName?).getD .jsdot

/-! ## Sections -/

inductive Part where
  | info (pairs : Pairs Text (Option Text))
  | params (pairs : Pairs Text Param)
  | entries (es : List Entry)
  | tables (pairs : Pairs Text (Pairs Text Text))
  | autofillers (pairs : Pairs Text Autofiller)

def part? (c : Config) (name : Text) : Option Part :=
  if name = "info" then some (.info c.info.pairs)
  else if name = "params" then some (.params c.params)
  else if name = "default" then some (.entries c.default)
  else if name = "mapping" ∨ name = "maps" then some (.entries c.mapping)
  else if name = "tables" then some (.tables c.tables)
  else if name = "autofillers" then some (.autofillers c.autofillers)
  else none

def Part.size : Part → Nat
  | .info ps => ps.length
  | .params ps => ps.length
  | .entries es => es.length
  | .tables ps => ps.length
  | .autofillers ps => ps.length

inductive Setting where
  | text (s : Text)
  | param (p : Param)
  | entry (e : Entry)
  | table (t : Pairs Text Text)
  | autofiller (a : Autofiller)

/-- The first entry that reads a path. -/
def entryIn? (path : Text) (es : List Entry) : Option Entry := es.find? (Entry.reads path)

def entry? (c : Config) (path : Text) : Option Entry := entryIn? path c.mapping

def Part.setting? (p : Part) (name : Text) : Option Setting :=
  match p with
  | .info ps => (Pairs.get? name ps).join.map .text
  | .params ps =>
    match Pairs.get? name ps with
    | none | some .null => none
    | some v => some (.param v)
  | .entries es => (entryIn? name es).map .entry
  | .tables ps => (Pairs.get? name ps).map .table
  | .autofillers ps => (Pairs.get? name ps).map .autofiller

/-- A value under its name, or the first entry that reads the path. -/
def setting? (c : Config) (section_ name : Text) : Option Setting :=
  (c.part? section_).bind fun p => p.setting? name

/-! ## Composition -/

def compose (base child : Config) : Config where
  info := .ofPairs (base.info.present.merge child.info.present)
  params := base.params.merge child.params
  default := distinctOn Entry.written (base.default ++ child.default)
  mapping := distinctOn Entry.written (base.mapping ++ child.mapping)
  tables := base.tables.merge child.tables
  autofillers := base.autofillers.merge child.autofillers
  problems := base.problems ++ child.problems

end Config
end Crosswalk
