import Crosswalk.Batch.Basic
import Crosswalk.Mapping.Processor

/-!
# Sessions

A session holds mappings and batches by name, over one processor and its files. It starts with the
empty mapping under the name `empty`.

* `Session.parse`, `Session.load`, `Session.compose`: a mapping that is put under a name.
* `Saved.same`: the names that held this very mapping before, in order. A mapping that the
  processor keeps is found under the names it had, and a new one under none.
-/

namespace Crosswalk

open Text

structure Session where
  processor : Processor
  mappings : Pairs Text Loaded
  batches : Pairs Text Batch

/-- A mapping that was put under a name. -/
structure Saved where
  /-- The names that held the same mapping before. -/
  same : List Text
  /-- How many mappings the processor keeps, when it keeps any. -/
  kept : Option Nat
  config : Config

namespace Session

def emptyName : Text := "empty"

def ofProcessor (p : Processor) : Session :=
  ⟨{ p with next := p.next + 1 }, [(emptyName, ⟨p.next, .empty⟩)], []⟩

/-! ## Mappings -/

def config (s : Session) (name : Text) : Config :=
  ((Pairs.get? name s.mappings).map Loaded.config).getD .empty

/-- The names that hold the mapping with a number, in order. -/
def namesOf (s : Session) (number : Nat) : List Text :=
  ((s.mappings.filter fun p => p.2.number == number).map (·.1)).mergeSort Text.le

/-- The session with a mapping under a name. -/
def save (s : Session) (name : Text) (loaded : Loaded × Processor) : Saved × Session :=
  (⟨s.namesOf loaded.1.number, loaded.2.cache.map Cache.size, loaded.1.config⟩,
    { s with processor := loaded.2, mappings := s.mappings.put name loaded.1 })

def parse [Host] (s : Session) (saveAs : Text) (name fallback : Option Text) (text : Text) :
    Except Excess (Saved × Session) :=
  (s.processor.parse name fallback text).map (s.save saveAs)

def load [Host] (s : Session) (saveAs reference : Text) : Except LoadFault (Saved × Session) :=
  (s.processor.load reference).map (s.save saveAs)

def compose (s : Session) (saveAs base child : Text) : Saved × Session :=
  s.save saveAs (s.processor.compose (s.config base) (s.config child))

def forget (s : Session) : Session := { s with processor := s.processor.forget }

/-! ## Files and stored mappings -/

def store (s : Session) : Store := s.processor.loader.store

def files (s : Session) : Files := s.store.files

def withStore (s : Session) (store : Store) : Session :=
  { s with processor := { s.processor with loader := { s.processor.loader with store := store } } }

def withFiles (s : Session) (files : Files) : Session :=
  s.withStore { s.store with files := files }

/-- The session with one more stored mapping, and the reference to it. -/
def register (s : Session) (id content : Text) : Text × Session :=
  let registered := s.store.register id content
  (registered.2, s.withStore registered.1)

/-! ## Batches -/

def startBatch (s : Session) (name mapping : Text) (vars : Pairs Text Value) : Session :=
  { s with batches := s.batches.put name (.ofConfig (s.config mapping) vars) }

def batch (s : Session) (name : Text) : Batch :=
  (Pairs.get? name s.batches).getD (.ofConfig .empty [])

/-- The records of a call, and the session whose batch keeps them. -/
def keepRecords (s : Session) (name : Text) (converted : List Record × Batch) :
    List Record × Session :=
  (converted.1, { s with batches := s.batches.put name converted.2 })

def convert [Host] (s : Session) (name : Text) (documents : List SourceDocument) :
    Converted (List Record × Session) :=
  ((s.batch name).convert documents).map (s.keepRecords name)

def convertFile [Host] (s : Session) (name : Text) (p : Path) (recordPath : Option Text) :
    Except BatchFault (List Record × Session) :=
  ((s.batch name).convertFile s.files p recordPath).map (s.keepRecords name)

/-- The session with the records of a batch in an output file. -/
def writeBatch (s : Session) (name : Text) (p : Path) : Except ExportFault Session :=
  ((s.batch name).save s.files p).map s.withFiles

end Session
end Crosswalk
