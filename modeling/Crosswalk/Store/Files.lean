import Crosswalk.Pairs
import Crosswalk.Text.Blank
import Crosswalk.Text.Case

/-!
# Files

Files are texts by path. A path is the list of its steps from the working directory; a path that
starts at the root leads to no file.

* `Path.ofText`: a path as it is written, where `.` stays and `..` goes back.
* `Files.read?`: the text of a file, whose lines all end in a line feed.
-/

namespace Crosswalk

open Text

structure Path where
  /-- The path starts at the root. -/
  absolute : Bool
  steps : List Text
  deriving DecidableEq

namespace Path

def here : Path := ⟨false, []⟩

/-- The steps of a written path, the empty ones and those that stay left out. -/
def ofText (s : Text) : Path :=
  ⟨s.head? == some '/', (cutsAt (· == '/') s).filter fun t => t != [] && t != ['.']⟩

/-- A path from another one; a path from the root stays itself. -/
def join (base p : Path) : Path := if p.absolute then p else ⟨base.absolute, base.steps ++ p.steps⟩

def parent (p : Path) : Path := { p with steps := p.steps.dropLast }

def text (p : Path) : Text :=
  let inner := joinWith ['/'] p.steps
  if p.absolute then '/' :: inner else if inner = [] then ['.'] else inner

/-- The ending of the last step from its last point on, in lower case. A name that starts with its
only point has none. -/
def ending (p : Path) : Text :=
  match p.steps.getLast? with
  | none => []
  | some name =>
    match cutLast? '.' name with
    | some (a, b) => if a = [] ∨ b = [] then [] else lower ('.' :: b)
    | none => []

end Path

abbrev Files := Pairs (List Text) Text

namespace Files

def ofList (files : List (Text × Text)) : Files :=
  Pairs.ofList (files.map fun p => ((Path.ofText p.1).steps, p.2))

/-- Whether a directory is at a place; the working directory always is. -/
def isDirectory (files : Files) (place : List Text) : Bool :=
  place.isEmpty || files.any fun f => place.isPrefixOf f.1 && place.length < f.1.length

/-- One step further. Only from a directory a step goes back, and never out of the working one. -/
def go? (files : Files) (place : List Text) (step : Text) : Option (List Text) :=
  if step = ".." then
    if place != [] && files.isDirectory place then some place.dropLast else none
  else some (place ++ [step])

/-- The place that a path leads to. -/
def locate? (files : Files) (p : Path) : Option (List Text) :=
  if p.absolute then none
  else p.steps.foldlM files.go? []

/-- The text of a file, as it was written. -/
def raw? (files : Files) (p : Path) : Option Text :=
  (files.locate? p).bind fun place => Pairs.get? place files

def read? (files : Files) (p : Path) : Option Text := (files.raw? p).map unifyLines

def isFile (files : Files) (p : Path) : Bool := (files.raw? p).isSome

def hasDirectory (files : Files) (p : Path) : Bool := (files.locate? p).any files.isDirectory

/-- Whether a file or a directory is there. -/
def hasPath (files : Files) (p : Path) : Bool := files.isFile p || files.hasDirectory p

def write (files : Files) (p : Path) (s : Text) : Files :=
  Pairs.put ((files.locate? p).getD p.steps) s files

end Files
end Crosswalk
