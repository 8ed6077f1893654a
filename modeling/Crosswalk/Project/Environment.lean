import Crosswalk.Pairs
import Crosswalk.Text.Blank
import Crosswalk.Text.Case

/-!
# Environment files

A line sets a variable: its name, an equals sign and its value, which may stand between quotes.
Behind a blank, a hash starts a comment.

* `Environment.ofText`: the variables that the lines of a file set, names in lower case.
-/

namespace Crosswalk

open Text

abbrev Environment := Pairs Text Text

namespace Environment

/-- A value without quotes, up to a comment. -/
def plainValue : Text → Text
  | [] => []
  | c :: s =>
    if isBlank c && (trimStart s).head? == some '#' then []
    else c :: plainValue s

/-- The value up to a quote; a quote behind a backslash belongs to it. -/
def quotedValue? (quote : Char) : Text → Option (Text × Text)
  | [] => none
  | '\\' :: c :: s =>
    if c = quote then (quotedValue? quote s).map fun p => (c :: p.1, p.2)
    else (quotedValue? quote (c :: s)).map fun p => ('\\' :: p.1, p.2)
  | c :: s =>
    if c = quote then some ([], s) else (quotedValue? quote s).map fun p => (c :: p.1, p.2)

/-- Whether nothing is left but blanks and a comment. -/
def isFinished (s : Text) : Bool :=
  match trimStart s with
  | [] => true
  | c :: _ => c == '#'

def valueOf? (s : Text) : Option Text :=
  match s with
  | '\'' :: t => (quotedValue? '\'' t).bind fun p => if isFinished p.2 then some p.1 else none
  | '"' :: t => (quotedValue? '"' t).bind fun p => if isFinished p.2 then some p.1 else none
  | '#' :: _ => some []
  | t => some (trim (plainValue t))

/-- A line without the word that hands its variable on. -/
def dropExport (line : Text) : Text :=
  match after? "export" line with
  | some rest => if rest.head?.any isBlank then trimStart rest else line
  | none => line

/-- The variable that a line sets. -/
def ofLine? (line : Text) : Option (Text × Text) :=
  match cutChar? '=' (dropExport (trim line)) with
  | none => none
  | some (name, value) =>
    let name := trim name
    if name = [] ∨ name.any (fun c => c == '#' || isBlank c) then none
    else (valueOf? (trimStart value)).map fun v => (lower name, v)

def ofText (s : Text) : Environment :=
  Pairs.ofList ((cutsAt (fun c => c == '\n' || c == '\r') s).filterMap ofLine?)

example : ofText "# x\nexport A = 'b' # c\nD=e #f\ng\n" = [(['a'], ['b']), (['d'], ['e'])] := by
  decide +kernel

end Environment
end Crosswalk
