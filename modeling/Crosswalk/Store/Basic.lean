import Crosswalk.Number.Numeral
import Crosswalk.Store.Files

/-!
# Stores of mappings

A reference names a mapping: one that was registered (`mapping:7`), a file in a directory that has
a short name (`user:book.ini`), or a file by its path or its place in a default directory.

* `Store.read`: the trimmed text of a mapping, if it is found and not blank.
* `Store.shortName?`: the short name of the directory that a reference names.
* `Store.fallback?`: the same, for what stands in the text of the mapping.
-/

namespace Crosswalk

open Text

structure Store where
  /-- Directories by their short name. -/
  directories : Pairs Text Path
  /-- The directory for references without a short name. -/
  fallback : Text
  /-- Registered mappings by their identifier. -/
  registered : Pairs Text Text
  files : Files

namespace Store

def registeredMark : Text := "mapping:"

def empty : Store := ⟨[], "user", [], []⟩

/-- The store with one more mapping, and the reference to it. -/
def register (s : Store) (id content : Text) : Store × Text :=
  ({ s with registered := s.registered.put id content }, registeredMark ++ id)

def shortName? (s : Store) (reference : Text) : Option Text :=
  (cutChar? ':' reference).bind fun p => if s.directories.has p.1 then some p.1 else none

/-- Where a mapping that a reference names looks for others: in its own directory, if that has a
name that is not empty. -/
def fallback? (s : Store) (reference : Text) : Option Text :=
  (s.shortName? reference).filter (· != [])

/-- The file that a reference without registered mark leads to. -/
def path? (s : Store) (reference fallback : Text) : Option Path :=
  match s.shortName? reference with
  | some name =>
    (Pairs.get? name s.directories).map fun d =>
      d.join (.ofText (reference.drop (name.length + 1)))
  | none =>
    let direct := Path.ofText reference
    if s.files.isFile direct then some direct
    else (Pairs.get? fallback s.directories).map fun d => d.join direct

def nonBlank? (content : Text) : Option Text :=
  let t := trim content
  if t = [] then none else some t

/-- An empty name of a fallback directory is none. -/
def fallbackName (s : Store) : Option Text → Text
  | some (c :: name) => c :: name
  | _ => s.fallback

def read (s : Store) (reference : Text) (fallback : Option Text) : Option Text :=
  let ref := trim reference
  if ref = [] then none
  else
    match after? registeredMark ref with
    | some id => (Pairs.get? (trim id) s.registered).bind nonBlank?
    | none => ((s.path? ref (s.fallbackName fallback)).bind s.files.read?).bind nonBlank?

end Store
end Crosswalk
