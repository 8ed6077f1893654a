import Crosswalk.Document.Shape
import Crosswalk.Template.Modifier

/-!
# Modifiers read from documents

`Modifier.ofMembers` reads the parts of a modifier by name, then sees that they fit together.
-/

namespace Crosswalk.Modifier

inductive ReadError where
  | shape (faults : List Crosswalk.Fault)
  | parts (fault : Fault)

def ReadError.message : ReadError → Text
  | .shape faults => faultsText faults
  | .parts fault => "Value error, " ++ fault.message

def shape (ms : Pairs Text Value) : Checked Modifier :=
  Modifier.mk
    <$> fieldOr ms "raw" (Shape.optional Shape.text) none
    <*> fieldOr ms "val" (Shape.optional Shape.text) none
    <*> fieldOr ms "prepend" (Shape.optional Shape.text) none
    <*> fieldOr ms "pattern" (Shape.optional Shape.text) none
    <*> fieldOr ms "append" (Shape.optional Shape.text) none
    <*> fieldOr ms "replace" (Shape.list Shape.text) []
    <*> fieldOr ms "filters" (Shape.list Shape.text) []
    <*> fieldOr ms "filters_has_replace" (Shape.list Shape.bool) []

def ofMembers (ms : Pairs Text Value) : Except ReadError Modifier :=
  match shape ms with
  | .faulty faults => .error (.shape faults)
  | .ok m =>
    match m.fault? with
    | some fault => .error (.parts fault)
    | none => .ok m

end Crosswalk.Modifier
