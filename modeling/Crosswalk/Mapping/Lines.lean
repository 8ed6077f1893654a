import Crosswalk.Mapping.Config
import Crosswalk.Template.Compile

/-!
# Mappings written in lines

A mapping has sections with a header between brackets. The sections `info` and `params` hold
settings, `default` and `mapping` (or `maps`) entries; a header with a service opens a block of
entries for it. Lines that start with a semicolon are comments.

* `splitLine`: a line as its source and its destination.
* `Items.ofText`: the headers and lines of a text, each line with the section it belongs to.
* `readLine`: the entries of one line.
* `Config.ofLines`: the whole mapping.
-/

namespace Crosswalk

open Text

/-! ## Lines -/

/-- A source, a destination, and whether the source was left out. -/
structure Line where
  source : Text
  destination : Text
  alone : Bool
  deriving DecidableEq

def noSource : Text := ['~']

/-- A line is cut at its last `=` outside quotes and before its pattern; a line that starts with
`~` at its first `=`. A line without `=` is a destination without source. -/
def splitLine (line : Text) : Option Line :=
  let s := trim line
  if startsWith noSource s then
    (cutChar? '=' s).map fun p => ⟨trim p.1, trim p.2, false⟩
  else
    match cutLastOutside? '=' (splitPattern s).1 with
    | some p => some ⟨trim p.1, trim (s.drop (p.1.length + 1)), false⟩
    | none => some ⟨noSource, s, true⟩

/-- Words for values that are no texts. -/
def paramWords : List (Text × Param) :=
  [("true", .bool true), ("false", .bool false), ("null", .null)]

/-- A quoted text, a pattern after a `~`, a word for a value, or a text. -/
def paramValue (text : Option Text) : Param :=
  match text with
  | none => .null
  | some t =>
    let s := trim t
    if isQuoted s then .text (trim (unquote s))
    else
      match after? noSource s with
      | some pattern => .template (Template.compile (trim pattern))
      | none => (paramWords.lookup (lower s)).getD (.text s)

/-! ## Sections -/

/-- What the header of a block of entries says. -/
structure BlockHeader where
  service : Text
  sub : Option Text
  variant : Option Text
  label : Option Text
  deriving DecidableEq

def BlockHeader.key (h : BlockHeader) : Text :=
  h.service ++ (match h.sub with | some s => ':' :: s | none => []) ++
    (match h.variant with | some v => (" #" : Text) ++ v | none => [])

inductive Section where
  | info
  | params
  | default
  | mapping
  | block (key : Text)
  deriving DecidableEq

inductive Item where
  | opened (h : BlockHeader)
  | line (s : Section) (text : Text)
  | problem (p : Problem)
  deriving DecidableEq

def isBracket (c : Char) : Bool := c == '[' || c == ']'

/-- The trimmed text between the brackets of a line, when nothing else stands on it. -/
def headerName? (line : Text) : Option Text :=
  match line with
  | '[' :: s =>
    if s.getLast? = some ']' ∧ (s.dropLast.all fun c => !isBracket c) then some (trim s.dropLast)
    else none
  | _ => none

def sectionOf? (name : Text) : Option Section :=
  if name = "info" then some .info
  else if name = "params" then some .params
  else if name = "default" then some .default
  else if name = "mapping" ∨ name = "maps" then some .mapping
  else none

def isServiceChar (c : Char) : Bool := !isBracket c && c != ':' && c != '#' && !isBlank c

def isSubChar (c : Char) : Bool := !isBracket c && c != '#' && !isBlank c

/-- A colon and the name of a part of a service, and the rest. -/
def readSub (s : Text) : Option Text × Text :=
  match s with
  | ':' :: t =>
    let sub := t.takeWhile isSubChar
    if sub = [] then (none, s) else (some sub, t.drop sub.length)
  | _ => (none, s)

/-- What stands after the brackets: nothing, or a label after `=`. -/
def readLabel? (s : Text) : Option (Option Text) :=
  match s with
  | [] => some none
  | _ =>
    match trimStart s with
    | '=' :: t => some (some (trimStart t))
    | _ => none

/-- A service, its part, a variant after `#` and a label; at least one of the last three must be
written. -/
def blockHeader? (line : Text) : Option BlockHeader := do
  let inside ← after? ['['] line
  let s := trimStart inside
  let service := s.takeWhile isServiceChar
  if service = [] then none
  else
    let (sub, s) := readSub (s.drop service.length)
    let (tail, s) := (s.takeWhile (fun c => !isBracket c), s.dropWhile fun c => !isBracket c)
    let variant ← match trimStart tail with
      | [] => some none
      | '#' :: v => if v = [] then none else some (some v)
      | _ => none
    let rest ← after? [']'] s
    let label ← readLabel? rest
    if sub.isSome || variant.isSome || label.any (· != []) then
      some ⟨service, sub, (variant.map trim).bind Template.nonEmpty,
        (label.map trim).bind Template.nonEmpty⟩
    else none

/-- The section that a header opens, if any, and what is noted about it. -/
def openSection (line : Text) : Option Section × List Item :=
  let name := headerName? line
  match name.bind sectionOf? with
  | some s => (some s, [])
  | none =>
    match blockHeader? line with
    | some h => (some (.block h.key), [.opened h])
    | none =>
      match name with
      | some (c :: n) => (none, [.problem (.unmanagedSection (c :: n))])
      | _ => (none, [.problem .unnamedSection])

/-- The items of the lines that follow when `current` is open. Lines outside of a section say
nothing. -/
def itemsFrom (current : Option Section) : List Text → List Item
  | [] => []
  | line :: lines =>
    if startsWith [';'] line then itemsFrom current lines
    else if startsWith ['['] line then
      let p := openSection line
      p.2 ++ itemsFrom p.1 lines
    else
      match current with
      | some s => .line s line :: itemsFrom current lines
      | none => itemsFrom current lines

def itemsOf (text : Text) : List Item := itemsFrom none (contentLines text)

/-- The lines of a section, wherever they stand. -/
def linesOf (s : Section) (items : List Item) : List Text :=
  items.filterMap fun
    | .line t text => if t = s then some text else none
    | _ => none

/-- The blocks by their key, each with the header that opened it first. -/
def blocksOf (items : List Item) : Pairs Text BlockHeader :=
  items.foldl (fun m item =>
    match item with
    | .opened h => m.putNew h.key h
    | _ => m) []

def problemsOf (items : List Item) : List Problem :=
  items.filterMap fun
    | .problem p => some p
    | _ => none

/-! ## Settings -/

/-- A line of settings as a key and its value, which may be left out. -/
def readKeyValue (line : Text) : Except Problem (Text × Option Text) :=
  match splitLine line with
  | some l =>
    if l.alone || l.source = [] || l.source = noSource then .error (.notKeyValue line)
    else .ok (l.source, Template.nonEmpty l.destination)
  | none => .error (.notKeyValue line)

def keyValues (lines : List Text) : Pairs Text (Option Text) :=
  Pairs.ofList (lines.filterMap fun line => (readKeyValue line).toOption)

def keyValueProblems (lines : List Text) : List Problem :=
  lines.filterMap fun line =>
    match readKeyValue line with
    | .error p => some p
    | .ok _ => none

/-- A quoted value without its quotes. -/
def infoValue (value : Text) : Text := if isQuoted value then trim (unquote value) else value

/-- The querier that the entries use, with a problem when the name is of none. -/
def querierOf (name : Option Text) : Querier × List Problem :=
  match name with
  | none | some [] => (.jsdot, [])
  | some n =>
    match Querier.ofName? (lower (trim n)) with
    | some q => (q, [])
    | none => (.jsdot, [.unmanagedQuerier n])

/-- A label that is left out is the name of the mapping. -/
def Info.named (name : Option Text) (ps : Pairs Text (Option Text)) : Info :=
  let label := (Pairs.get? ("label" : Text) ps).join
  match label, name with
  | some (_ :: _), _ => .ofPairs ps
  | _, some (c :: n) => .ofPairs (Pairs.put ("label" : Text) (some (c :: n)) ps)
  | _, _ => .ofPairs ps

/-! ## Entries -/

/-- The entries of what a descriptor resolves to, the problems last. -/
def entriesOf (source : Option Source) (found : List (Except UnknownField Descriptor)) :
    List Entry :=
  (found.filterMap fun
    | .ok d => some (.rule ⟨source, d.destination, Template.compile? d.pattern⟩)
    | .error _ => none) ++
  (found.filterMap fun
    | .ok _ => none
    | .error e => some (.faulty (.unknownField e)))

/-- The entries of a line, one for each field it names. A quoted destination is a raw value for
the field on the left. -/
def readLine (r : Resolver) (q : Querier) (default : Bool) (line : Text) : List Entry :=
  match splitLine line with
  | none => [.faulty (.unsplitLine line)]
  | some l =>
    if l.source = [] then [.faulty (.lineWithoutSource line)]
    else if l.destination = [] then [.faulty (.lineWithoutDestination line)]
    else
      let raw := isQuoted l.destination
      let found := r.resolveAll (if raw then l.source ++ " ~ " ++ l.destination else l.destination)
      let bare := default || raw || l.alone || l.source == noSource
      match found with
      | [] => [.faulty (.invalidDestination line l.destination)]
      | _ => entriesOf (if bare then none else some ⟨q, l.source⟩) found

def readLines (r : Resolver) (q : Querier) (default : Bool) (lines : List Text) : List Entry :=
  lines.flatMap (readLine r q default)

def blockEntries (r : Resolver) (q : Querier) (items : List Item) (key : Text) (h : BlockHeader) :
    Autofiller :=
  ⟨h.service, h.sub, h.variant, h.label, readLines r q false (linesOf (.block key) items)⟩

/-! ## The mapping -/

def Config.ofItems (r : Resolver) (name : Option Text) (items : List Item) : Config :=
  let info := keyValues (linesOf .info items) |>.map fun p => (p.1, p.2.map infoValue)
  let (q, querierProblems) := querierOf (Pairs.get? ("querier" : Text) info).join
  let params := keyValues (linesOf .params items) |>.map fun p => (p.1, paramValue p.2)
  let default := readLines r q true (linesOf .default items)
  let mapping := readLines r q false (linesOf .mapping items)
  let blocks := (blocksOf items).map fun p => (p.1, blockEntries r q items p.1 p.2)
  { info := .named name info
    params := params
    default := default
    mapping := mapping
    tables := []
    autofillers := blocks
    problems :=
      problemsOf items ++ keyValueProblems (linesOf .info items) ++ querierProblems ++
        keyValueProblems (linesOf .params items) ++ Entry.problems default ++
        Entry.problems mapping ++ blocks.flatMap fun p => Entry.problems p.2.mapping }

def Config.ofLines (r : Resolver) (name : Option Text) (text : Text) : Config :=
  .ofItems r name (itemsOf text)

end Crosswalk
