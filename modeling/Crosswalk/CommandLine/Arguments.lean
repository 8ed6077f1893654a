import Crosswalk.Text.Basic

/-!
# Arguments

The arguments of the command line name a command and its options. An option has a long name after
two dashes and may have a letter after one; its value is the next argument, or follows the long name
behind an equals sign, or the letter at once. Two dashes alone end the options.

* `Request.ofArguments? args`: what the arguments ask for; nothing when they cannot be used.
-/

namespace Crosswalk

open Text

/-- An option, and whether it takes a value. -/
structure OptionName where
  long : Text
  letter : Option Char
  takesValue : Bool
  deriving DecidableEq

/-- What the arguments ask for. -/
inductive Request where
  | check (mapping : Text) (project : Option Text)
  | convert (mapping source : Text) (output recordPath : Option Text) (vars : List Text)
      (project : Option Text)
  | vocabulary (path : Option Text)
  | version
  | help
  deriving DecidableEq

namespace Arguments

/-! ## Options -/

/-- Options in order, each with its value. -/
abbrev Given := List (Text × Text)

def lastOf? (name : Text) (given : Given) : Option Text :=
  ((given.filter fun p => p.1 == name).getLast?).map (·.2)

def allOf (name : Text) (given : Given) : List Text :=
  (given.filter fun p => p.1 == name).map (·.2)

def long? (names : List OptionName) (s : Text) : Option OptionName :=
  names.find? fun o => '-' :: '-' :: o.long == s

def letter? (names : List OptionName) (c : Char) : Option OptionName :=
  names.find? fun o => o.letter == some c

/-- The options that letters stand for, and whether the last one needs the next argument. What
follows a letter that takes a value is its value. -/
def readLetters? (names : List OptionName) : Text → Option (Given × Option Text)
  | [] => some ([], none)
  | c :: s =>
    match letter? names c with
    | none => none
    | some o =>
      if o.takesValue then
        if s = [] then some ([], some o.long) else some ([(o.long, s)], none)
      else (readLetters? names s).map fun p => ((o.long, []) :: p.1, p.2)

/-- The options of one argument, and the option that needs the next one. -/
def readOption? (names : List OptionName) (s : Text) : Option (Given × Option Text) :=
  let (name, value) := match cutChar? '=' s with | some (a, b) => (a, some b) | none => (s, none)
  match long? names name with
  | some o =>
    match value with
    | some v => if o.takesValue then some ([(o.long, v)], none) else none
    | none => if o.takesValue then some ([], some o.long) else some ([(o.long, [])], none)
  | none =>
    match s with
    | '-' :: '-' :: _ => none
    | '-' :: letters => readLetters? names letters
    | _ => none

def isOption (s : Text) : Bool := s.head? == some '-' && 1 < s.length

/-- The options at the head of the arguments, and the arguments from the first other one on. -/
def readAll? (names : List OptionName) : List Text → Option (Given × List Text)
  | [] => some ([], [])
  | s :: more =>
    if s = "--" then some ([], more)
    else if isOption s then
      match readOption? names s with
      | none => none
      | some (given, none) => (readAll? names more).map fun p => (given ++ p.1, p.2)
      | some (given, some waiting) =>
        match more with
        | [] => none
        | v :: more =>
          (readAll? names more).map fun p => (given ++ (waiting, v) :: p.1, p.2)
    else some ([], s :: more)

/-- The options of a command, which has no other arguments. -/
def readCommand? (names : List OptionName) (args : List Text) : Option Given :=
  match readAll? names args with
  | some (given, []) => some given
  | _ => none

/-! ## Commands -/

def helpName : OptionName := ⟨"help", none, false⟩

def mappingName : OptionName := ⟨"mapping", some 'm', true⟩

def projectName : OptionName := ⟨"config", some 'c', true⟩

def generalNames : List OptionName := [
  ⟨"version", none, false⟩, ⟨"log-level", some 'l', true⟩, helpName]

def checkNames : List OptionName := [mappingName, projectName, helpName]

def convertNames : List OptionName := [
  mappingName, projectName, helpName, ⟨"source", some 's', true⟩, ⟨"output", some 'o', true⟩,
  ⟨"record-xpath", none, true⟩, ⟨"var", none, true⟩]

def vocabularyNames : List OptionName := [⟨"path", some 'p', true⟩, helpName]

def isGiven (name : Text) (given : Given) : Bool := given.any fun p => p.1 == name

/-- A request, or help when it is asked for. -/
def orHelp (given : Given) (request : Option Request) : Option Request :=
  if isGiven "help" given then some .help else request

def check? (given : Given) : Option Request :=
  (lastOf? "mapping" given).map fun m => .check m (lastOf? "config" given)

def convert? (given : Given) : Option Request :=
  (lastOf? "mapping" given).bind fun m => (lastOf? "source" given).map fun s =>
    .convert m s (lastOf? "output" given) (lastOf? "record-xpath" given) (allOf "var" given)
      (lastOf? "config" given)

def command? (name : Text) (args : List Text) : Option Request :=
  if name = "check" then (readCommand? checkNames args).bind fun g => orHelp g (check? g)
  else if name = "convert" then (readCommand? convertNames args).bind fun g => orHelp g (convert? g)
  else if name = "vocab" then
    (readCommand? vocabularyNames args).bind fun g =>
      orHelp g (some (.vocabulary (lastOf? "path" g)))
  else none

end Arguments

open Arguments

def Request.ofArguments? (args : List Text) : Option Request :=
  (readAll? generalNames args).bind fun p =>
    match p.1.find? fun o => o.1 == ("version" : Text) || o.1 == ("help" : Text) with
    | some o => some (if o.1 = "version" then .version else .help)
    | none =>
      match p.2 with
      | [] => none
      | name :: more => command? name more

end Crosswalk
