import Crosswalk.Number.Shortest
import Crosswalk.Pairs

/-!
# Values of documents

A document is nested: lists and maps hold values, and the members of a map keep their order.

* `Value.beq`: equality of values, part by part.
* `Value.scalarText`: a scalar as it stands in a template.
* `Value.literal`: any value on one line, with the brackets of lists and maps.
-/

namespace Crosswalk

inductive Value where
  | null
  | bool (b : Bool)
  | int (n : Int)
  | float (x : Binary64)
  | str (s : Text)
  | list (items : List Value)
  | map (members : List (Text × Value))

namespace Value

instance : Inhabited Value := ⟨.null⟩

/-! ## Equality -/

mutual

def beq : Value → Value → Bool
  | .null, .null => true
  | .bool a, .bool b => a == b
  | .int a, .int b => a == b
  | .float a, .float b => a == b
  | .str a, .str b => a == b
  | .list a, .list b => beqItems a b
  | .map a, .map b => beqMembers a b
  | _, _ => false

def beqItems : List Value → List Value → Bool
  | [], [] => true
  | a :: as, b :: bs => beq a b && beqItems as bs
  | _, _ => false

def beqMembers : List (Text × Value) → List (Text × Value) → Bool
  | [], [] => true
  | (k, a) :: as, (l, b) :: bs => k == l && beq a b && beqMembers as bs
  | _, _ => false

end

instance : BEq Value := ⟨beq⟩

/-! ## Parts -/

def text? : Value → Option Text
  | .str s => some s
  | _ => none

def items? : Value → Option (List Value)
  | .list items => some items
  | _ => none

def members? : Value → Option (List (Text × Value))
  | .map members => some members
  | _ => none

def get? (k : Text) (v : Value) : Option Value := v.members?.bind (Pairs.get? k)

def isNull : Value → Bool
  | .null => true
  | _ => false

/-- A value without parts, null included. -/
def isScalar : Value → Bool
  | .list _ => false
  | .map _ => false
  | _ => true

/-! ## Texts -/

/-- Characters that a literal shows by their code. -/
def isHidden (c : Char) : Bool :=
  let n := c.toNat
  n < 0x20 || (0x7F ≤ n && n ≤ 0xA0) || n == 0xAD || (0x2000 ≤ n && n ≤ 0x200F) ||
    (0x2028 ≤ n && n ≤ 0x202F) || n == 0x3000 || n == 0xFEFF

/-- The code of a character in at least `width` digits of base sixteen. -/
def hexText (n width : Nat) : Text := padStart '0' width (Nat.toDigits 16 n)

def escapedChar (quote c : Char) : Text :=
  if c = quote ∨ c = '\\' then ['\\', c]
  else if c = '\n' then "\\n"
  else if c = '\r' then "\\r"
  else if c = '\t' then "\\t"
  else if isHidden c then
    if c.toNat < 0x100 then "\\x" ++ hexText c.toNat 2 else "\\u" ++ hexText c.toNat 4
  else [c]

/-- A text between quotes: single ones, unless it holds single quotes only. -/
def quotedText (s : Text) : Text :=
  let quote := if '\'' ∈ s ∧ '"' ∉ s then '"' else '\''
  quote :: (s.flatMap (escapedChar quote) ++ [quote])

mutual

def literal : Value → Text
  | .null => "None"
  | .bool b => if b then "True" else "False"
  | .int n => intText n
  | .float x => x.text
  | .str s => quotedText s
  | .list items => '[' :: (literalItems items ++ [']'])
  | .map members => '{' :: (literalMembers members ++ ['}'])

def literalItems : List Value → Text
  | [] => []
  | [v] => literal v
  | v :: w :: vs => literal v ++ ", " ++ literalItems (w :: vs)

def literalMembers : List (Text × Value) → Text
  | [] => []
  | [(k, v)] => quotedText k ++ ": " ++ literal v
  | (k, v) :: m :: ms => quotedText k ++ ": " ++ literal v ++ ", " ++ literalMembers (m :: ms)

end

/-- A text itself, any other value as its literal. -/
def display : Value → Text
  | .str s => s
  | v => literal v

/-- A scalar as it stands in a template: nothing for null, a whole number without a point. -/
def scalarText : Value → Text
  | .null => []
  | .bool b => if b then "true" else "false"
  | .float x => x.plainText
  | v => display v

example : scalarText (.float (.ofRatio false 1000 1)) = "1000" := by decide +kernel

example : literal (.list [.str "it's", .null]) = "[\"it's\", None]" := by decide

end Value
end Crosswalk
