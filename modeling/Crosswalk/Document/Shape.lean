import Crosswalk.Document.Value
import Crosswalk.Number.Reading

/-!
# Shapes of values

A shape reads a value as data of a known form. Every fault of a value is found, each with the
names and positions that lead to it.

* `Checked`: data, or all the faults that stand in its way.
* `field`, `fieldOr`: a member of a map, required or with a default.
* `Fault.text`: the place and the kind of a fault.
-/

namespace Crosswalk

inductive FaultKind where
  | missing
  | notText
  | notList
  | notMap
  | notRecord
  | notBool
  | unreadableBool
  | notInt
  | unreadableInt
  | partOfInt
  deriving DecidableEq

def FaultKind.name : FaultKind → Text
  | .missing => "missing"
  | .notText => "string_type"
  | .notList => "list_type"
  | .notMap => "dict_type"
  | .notRecord => "model_type"
  | .notBool => "bool_type"
  | .unreadableBool => "bool_parsing"
  | .notInt => "int_type"
  | .unreadableInt => "int_parsing"
  | .partOfInt => "int_from_float"

structure Fault where
  place : List Text
  kind : FaultKind
  deriving DecidableEq

def Fault.text (f : Fault) : Text := Text.joinWith ['.'] f.place ++ ": " ++ f.kind.name

def faultsText (fs : List Fault) : Text := Text.joinWith "; " (fs.map Fault.text)

inductive Checked (α : Type) where
  | ok (a : α)
  | faulty (faults : List Fault)

namespace Checked

def map {α β : Type} (f : α → β) : Checked α → Checked β
  | .ok a => .ok (f a)
  | .faulty fs => .faulty fs

/-- The faults of both sides. -/
def ap {α β : Type} : Checked (α → β) → Checked α → Checked β
  | .ok f, .ok a => .ok (f a)
  | .ok _, .faulty fs => .faulty fs
  | .faulty fs, .ok _ => .faulty fs
  | .faulty fs, .faulty gs => .faulty (fs ++ gs)

instance : Applicative Checked where
  pure := .ok
  seq f x := ap f (x ())

/-- The same faults at a place that is one step further away. -/
def within {α : Type} (step : Text) : Checked α → Checked α
  | .ok a => .ok a
  | .faulty fs => .faulty (fs.map fun f => { f with place := step :: f.place })

def fault {α : Type} (kind : FaultKind) : Checked α := .faulty [⟨[], kind⟩]

end Checked

abbrev Shape (α : Type) := Value → Checked α

namespace Shape

open Checked

def any : Shape Value := .ok

def text : Shape Text
  | .str s => .ok s
  | _ => fault .notText

def optional {α : Type} (shape : Shape α) : Shape (Option α)
  | .null => .ok none
  | v => (shape v).map some

/-- Words that stand for a truth value. -/
def boolWords : List (Text × Bool) := [
  ("0", false), ("off", false), ("f", false), ("false", false), ("n", false), ("no", false),
  ("1", true), ("on", true), ("t", true), ("true", true), ("y", true), ("yes", true)]

def bool : Shape Bool
  | .bool b => .ok b
  | .str s =>
    match Pairs.get? (s.map Char.toLower) boolWords with
    | some b => .ok b
    | none => fault .unreadableBool
  | .int n => if n = 0 then .ok false else if n = 1 then .ok true else fault .unreadableBool
  | .float x =>
    match x.toInt? with
    | some n => if n = 0 then .ok false else if n = 1 then .ok true else fault .unreadableBool
    | none => fault .notBool
  | _ => fault .notBool

/-- A numeral without its point when only zeros follow it. -/
def dropZeroPart (s : Text) : Text :=
  match Text.cutChar? '.' s with
  | some (a, b) => if b.all (· == '0') then a else s
  | none => s

def int : Shape Int
  | .int n => .ok n
  | .bool b => .ok (if b then 1 else 0)
  | .float x =>
    match x.toInt? with
    | some n => .ok n
    | none => fault .partOfInt
  | .str s =>
    match readInt? (dropZeroPart (Text.trim s)) with
    | some n => .ok n
    | none => fault .unreadableInt
  | _ => fault .notInt

def items {α : Type} (shape : Shape α) : Nat → List Value → Checked (List α)
  | _, [] => .ok []
  | i, v :: vs => List.cons <$> (shape v).within (natText i) <*> items shape (i + 1) vs

def list {α : Type} (shape : Shape α) : Shape (List α)
  | .list vs => items shape 0 vs
  | _ => fault .notList

def members {α : Type} (shape : Shape α) : List (Text × Value) → Checked (Pairs Text α)
  | [] => .ok []
  | (k, v) :: ms => (fun a as => (k, a) :: as) <$> (shape v).within k <*> members shape ms

def map {α : Type} (shape : Shape α) : Shape (Pairs Text α)
  | .map ms => members shape ms
  | _ => fault .notMap

/-- A map that is read field by field. -/
def record {α : Type} (shape : Pairs Text Value → Checked α) : Shape α
  | .map ms => shape ms
  | _ => fault .notRecord

end Shape

/-- A required member. -/
def field {α : Type} (ms : Pairs Text Value) (name : Text) (shape : Shape α) : Checked α :=
  match Pairs.get? name ms with
  | some v => (shape v).within name
  | none => (Checked.fault .missing).within name

/-- A member that has a default when it is missing. -/
def fieldOr {α : Type} (ms : Pairs Text Value) (name : Text) (shape : Shape α) (default : α) :
    Checked α :=
  match Pairs.get? name ms with
  | some v => (shape v).within name
  | none => .ok default

end Crosswalk
