import Crosswalk.Json.Writer
import Crosswalk.Mapping.Entry

/-!
# Entries as json

An entry is written with all its parts, so entries that are written alike are the same entry.

* `Entry.parts`: what an entry holds, a problem as its message.
* `Entry.written`: the entry on one line of json.
-/

namespace Crosswalk

/-- What an entry holds. -/
structure Entry.Parts where
  source : Option Source
  destination : Option Destination
  modifier : Modifier
  /-- Why the entry cannot be used. -/
  error : Option Text
  deriving DecidableEq

def Entry.parts : Entry → Entry.Parts
  | .rule r => ⟨r.source, some r.destination, r.modifier, none⟩
  | .faulty p => ⟨none, none, .empty, some p.message⟩

/-! ## Values -/

/-- A part that may be left out, which is null then. -/
def Value.optional {α : Type} (f : α → Value) (o : Option α) : Value := (o.map f).getD .null

def Source.value (s : Source) : Value :=
  .map [("querier", .str s.querier.name), ("path", .str s.path)]

def Destination.value (d : Destination) : Value :=
  .map [
    ("field", .str d.field),
    ("property_id", .optional Identifier.value d.propertyId),
    ("datatype", .list (d.datatypes.map .str)),
    ("language", .optional .str d.language),
    ("visibility", .optional (fun v => .str v.text) d.visibility),
    ("dest", .optional .str d.written)]

def Modifier.value (m : Modifier) : Value :=
  .map [
    ("raw", .optional .str m.raw),
    ("val", .optional .str m.val),
    ("prepend", .optional .str m.prepend),
    ("pattern", .optional .str m.pattern),
    ("append", .optional .str m.append),
    ("replace", .list (m.replace.map .str)),
    ("filters", .list (m.filters.map .str)),
    ("filters_has_replace", .list (m.hasReplace.map .bool))]

def Entry.Parts.value (p : Entry.Parts) : Value :=
  .map [
    ("from", .optional Source.value p.source),
    ("to", .optional Destination.value p.destination),
    ("mod", p.modifier.value),
    ("error", .optional .str p.error)]

def Entry.written (e : Entry) : Text := Json.write Json.plain e.parts.value

end Crosswalk
