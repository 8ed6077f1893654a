import Crosswalk.CommandLine.Run
import Crosswalk.Host.Bundled

/-!
# The program

The program reads the files of its working directory, runs the command line on them and writes the
files that have changed.
-/

namespace Crosswalk.CommandLine

open Text

/-- A line of a table: its cells with two spaces between them. -/
def rowLine (row : List Text) : Text := trimEnd (joinWith "  " row)

def Item.lines : Item → List Text
  | .line s => [s]
  | .table title header rows => title :: rowLine header :: rows.map rowLine

/-- The files below a directory, which stands behind `leader` in their paths. A file whose content
is no text is left out. -/
partial def readBelow (leader directory : String) : IO (List (Text × Text)) := do
  let place ← IO.FS.realPath directory
  let mut files := []
  for entry in ← place.readDir do
    let path := leader ++ entry.fileName
    if ← entry.path.isDir then
      files := files ++ (← readBelow (path ++ "/") path)
    else
      match ← (IO.FS.readFile path).toBaseIO with
      | .ok s => files := files ++ [(path.toList, s.toList)]
      | .error _ => pure ()
  return files

/-- The files that are new or have changed. -/
def changed (before after : Files) : Files :=
  after.filter fun f => Pairs.get? f.1 before != some f.2

def writeFile (f : List Text × Text) : IO Unit :=
  IO.FS.writeFile (String.ofList (joinWith ['/'] f.1)) (String.ofList f.2)

end Crosswalk.CommandLine

open Crosswalk CommandLine

def main (args : List String) : IO UInt32 := do
  let files := Files.ofList (← readBelow "" ".")
  let outcome := run (args.map String.toList) files
  for line in outcome.output.flatMap Item.lines do
    IO.println (String.ofList line)
  for message in outcome.messages do
    IO.eprintln (String.ofList message)
  (changed files outcome.files).forM writeFile
  return UInt32.ofNat outcome.status
