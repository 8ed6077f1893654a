import Crosswalk.CommandLine.Arguments
import Crosswalk.CommandLine.Markup
import Crosswalk.Batch.Basic
import Crosswalk.Mapping.Processor
import Crosswalk.Project.Basic

/-!
# Running the command line

A request is carried out on the files of the working directory. What is shown are lines and tables;
a message stands on the side of the errors and starts with a cross.

* `CommandLine.run args files`: what the arguments give: a status, the output, the messages and the
  files afterwards. The status is 0, 1 when the request fails, or 2 when the arguments are wrong.
-/

namespace Crosswalk.CommandLine

open Text

inductive Item where
  | line (s : Text)
  | table (title : Text) (header : List Text) (rows : List (List Text))
  deriving DecidableEq

structure Shown where
  output : List Item
  messages : List Text

/-- Why a request ends early, with what was shown before. -/
inductive Stop where
  | failed (shown : Shown)
  | usage

abbrev Run (α : Type) := Except Stop α

/-! ## Showing -/

def blue (s : Text) : Text := "[blue]" ++ s ++ "[/blue]"

def green (s : Text) : Text := "[green]" ++ s ++ "[/green]"

def red (s : Text) : Text := "[red]" ++ s ++ "[/red]"

/-- What markup shows; a run with broken markup fails. -/
def plain (shown : Shown) (s : Text) : Run Text :=
  match Markup.plain? s with
  | some t => .ok t
  | none => .error (.failed shown)

def say (shown : Shown) (s : Text) : Run Shown :=
  (plain shown s).map fun t => { shown with output := shown.output ++ [.line t] }

def complain (shown : Shown) (s : Text) : Run Shown :=
  (plain shown (red ("✗ " ++ s))).map fun t => { shown with messages := shown.messages ++ [t] }

def sayTable (shown : Shown) (title : Text) (header : List Text) (rows : List (List Text)) :
    Run Shown := do
  let title ← plain shown title
  let rows ← rows.mapM fun row => row.mapM (plain shown)
  pure { shown with output := shown.output ++ [.table title header rows] }

/-- A failed request, whose message may tell the cause. -/
def fail {α : Type} (shown : Shown) (what : Text) (cause : Option Text) : Run α := do
  let shown ← complain shown (match cause with | some c => what ++ ": " ++ c | none => what)
  .error (.failed shown)

def orFail {α ε : Type} (shown : Shown) (what : Text) (cause : ε → Option Text) :
    Except ε α → Run α
  | .ok a => .ok a
  | .error e => fail shown what (cause e)

/-! ## Processors -/

/-- A processor with the variables of its project. -/
structure Prepared where
  processor : Processor
  vars : Pairs Text Value

def prepare (files : Files) (settings : Settings) (register : Register) (store : Store)
    (overrides : Pairs Text Text) (vars : Pairs Text Value) : Prepared :=
  ⟨.ofLoader ⟨⟨register, settings.checkField, overrides⟩, { store with files := files },
    settings.maxDepth⟩ none, vars⟩

/-- The processor of the settings alone. -/
def ofSettings (files : Files) : Except ProjectFault Prepared :=
  match Settings.ofFiles files with
  | .faulty fs => .error (.settings fs)
  | .ok settings =>
    match Schema.load files settings.vocabularyPath with
    | .error e => .error (.vocabulary e)
    | .ok schema =>
      .ok (prepare files settings (.ofSchema schema)
        { Store.empty with directories := settings.directories } [] [])

def ofProject (files : Files) (path : Path) : Except ProjectFault Prepared :=
  (Workspace.load files path).bind fun w => (w.register files).map fun register =>
    prepare files w.settings register (w.store files) w.project.fieldMap w.project.vars

def prepared (files : Files) : Option Text → Except ProjectFault Prepared
  | none => ofSettings files
  | some path => ofProject files (.ofText path)

/-- An argument that must be the path of something. -/
def existing (files : Files) (path : Text) : Run Unit :=
  if path != [] && files.hasPath (.ofText path) then .ok () else .error .usage

/-- The mapping that a reference names. -/
def loadMapping [Host] (shown : Shown) (what : Text) (p : Prepared) (mapping : Text) : Run Loaded :=
  (orFail shown what (fun e => some (LoadFault.message e)) (p.processor.load mapping)).map (·.1)

/-! ## Requests -/

/-- The row of an entry that can be used: its section, its source and its destination. -/
def entryRow (part : Text) : Entry → Option (List Text)
  | .faulty _ => none
  | .rule r =>
    let source : Text :=
      match r.source with
      | some s => s.querier.name ++ ":" ++ s.path
      | none => []
    let written := r.destination.written.filter (· != [])
    some [part, source, written.getD r.destination.field]

def entryRows (c : Config) : List (List Text) :=
  c.default.filterMap (entryRow "default") ++ c.mapping.filterMap (entryRow "mapping")

def autofillerLine (a : Autofiller) : Text :=
  "Autofiller " ++ a.service ++ ": " ++ natText a.mapping.length ++ " entries"

def check [Host] (files : Files) (mapping : Text) (project : Option Text) : Run Shown := do
  project.forM (existing files)
  let shown ← say ⟨[], []⟩ (blue ("Checking mapping " ++ mapping ++ "..."))
  let what : Text := "Mapping check failed"
  let p ← orFail shown what ProjectFault.message? (prepared files project)
  let loaded ← loadMapping shown what p mapping
  let c := loaded.config
  let title := (c.info.label.filter (· != [])).getD mapping
  let shown ← sayTable shown title ["Section", "Source", "Destination"] (entryRows c)
  let shown ← c.autofillers.foldlM (fun shown a => say shown (blue (autofillerLine a.2))) shown
  if c.problems.isEmpty then say shown (green "✓ Mapping is valid!")
  else
    let shown ← c.problems.foldlM (fun shown e => complain shown e.message) shown
    .error (.failed shown)

/-- A variable that is written as a name, an equals sign and a value. -/
def binding? (s : Text) : Option (Text × Value) :=
  (cutChar? '=' s).bind fun p =>
    if trim p.1 = [] then none else some (trim p.1, .str (trim p.2))

def variablesOf (written : List Text) : Run (Pairs Text Value) :=
  match written.mapM binding? with
  | some ps => .ok (Pairs.ofList ps)
  | none => .error .usage

def convert [Host] (files : Files) (mapping source : Text) (output recordPath : Option Text)
    (written : List Text) (project : Option Text) : Run (Shown × Files) := do
  existing files source
  project.forM (existing files)
  let path := Path.ofText source
  let shown ← say ⟨[], []⟩ (blue ("Converting " ++ path.text ++ " with " ++ mapping ++ "..."))
  let what : Text := "Conversion failed"
  let p ← orFail shown what ProjectFault.message? (prepared files project)
  let loaded ← loadMapping shown what p mapping
  let vars := p.vars.merge (← variablesOf written)
  let batch := Batch.ofConfig loaded.config vars
  let (records, batch) ←
    orFail shown what BatchFault.message? (batch.convertFile files path recordPath)
  let done := green ("✓ " ++ natText records.length ++ " records converted successfully!")
  match output with
  | none =>
    let lines := (cutsAt (· == '\n') (recordsText records)).map Item.line
    pure (← say { shown with output := shown.output ++ lines } done, files)
  | some target =>
    let files ← orFail shown what (fun e => some (ExportFault.message e))
      (batch.save files (.ofText target))
    pure (← say shown done, files)

def vocabularyRows (s : Schema) : List (List Text) :=
  s.vocabularies.map fun v => [v.leader, v.label, natText v.properties.length]

def customRows (s : Schema) : List (List Text) :=
  s.customVocabularies.map fun v => [v.id.text, v.label, natText v.terms.length]

def vocabulary (files : Files) (path : Option Text) : Run Shown := do
  path.forM (existing files)
  let s ← orFail ⟨[], []⟩ "Vocabulary loading failed" (FileFault.message? "Vocabulary")
    (Schema.load files path)
  let shown ← sayTable ⟨[], []⟩ "Vocabularies" ["Prefix", "Label", "Properties"] (vocabularyRows s)
  if s.customVocabularies.isEmpty then pure shown
  else sayTable shown "Custom vocabs" ["Id", "Label", "Terms"] (customRows s)

def versionLine : Text := "bik, version 0.1.0"

def helpLine : Text := "Usage: bik [--log-level LEVEL] check|convert|vocab [OPTIONS]"

/-! ## Outcomes -/

structure Outcome where
  status : Nat
  output : List Item
  messages : List Text
  files : Files

def carryOut [Host] (files : Files) : Request → Run (Shown × Files)
  | .check mapping project => (check files mapping project).map (·, files)
  | .convert mapping source output recordPath vars project =>
    convert files mapping source output recordPath vars project
  | .vocabulary path => (vocabulary files path).map (·, files)
  | .version => .ok (⟨[.line versionLine], []⟩, files)
  | .help => .ok (⟨[.line helpLine], []⟩, files)

def Outcome.ofRun (files : Files) : Run (Shown × Files) → Outcome
  | .ok (shown, after) => ⟨0, shown.output, shown.messages, after⟩
  | .error (.failed shown) => ⟨1, shown.output, shown.messages, files⟩
  | .error .usage => ⟨2, [], [], files⟩

def run [Host] (args : List Text) (files : Files) : Outcome :=
  match Request.ofArguments? args with
  | none => ⟨2, [], [], files⟩
  | some request => .ofRun files (carryOut files request)

end Crosswalk.CommandLine
