import Crosswalk.Document.Value

/-!
# Writing json

* `Json.write style v`: on one line, with the marks of the style between items and after names.
* `Json.indented v`: one item a line, two spaces deeper in each list and map.
-/

namespace Crosswalk.Json

open Value

structure Style where
  itemMark : Text
  nameMark : Text
  /-- Characters beyond ASCII are written by their code. -/
  ascii : Bool

/-- Nothing between the items but the marks. -/
def compact : Style := ⟨",", ":", true⟩

def spaced : Style := ⟨", ", ": ", true⟩

/-- As compact, with the characters beyond ASCII as they are. -/
def plain : Style := ⟨",", ":", false⟩

def codeText (n : Nat) : Text := "\\u" ++ hexText n 4

def charText (ascii : Bool) (c : Char) : Text :=
  let n := c.toNat
  if c = '"' then "\\\""
  else if c = '\\' then "\\\\"
  else if c = '\n' then "\\n"
  else if c = '\r' then "\\r"
  else if c = '\t' then "\\t"
  else if n = 0x08 then "\\b"
  else if n = 0x0C then "\\f"
  else if n < 0x20 then codeText n
  else if ascii && 0x7F ≤ n then
    if n < 0x10000 then codeText n
    else codeText (0xD800 + (n - 0x10000) / 1024) ++ codeText (0xDC00 + (n - 0x10000) % 1024)
  else [c]

def stringText (ascii : Bool) (s : Text) : Text :=
  '"' :: (s.flatMap (charText ascii) ++ ['"'])

def floatText (x : Binary64) : Text :=
  match x with
  | .nan => "NaN"
  | .infinite negative => if negative then "-Infinity" else "Infinity"
  | x => x.text

mutual

def write (style : Style) : Value → Text
  | .null => "null"
  | .bool b => if b then "true" else "false"
  | .int n => intText n
  | .float x => floatText x
  | .str s => stringText style.ascii s
  | .list items => '[' :: (writeItems style items ++ [']'])
  | .map members => '{' :: (writeMembers style members ++ ['}'])

def writeItems (style : Style) : List Value → Text
  | [] => []
  | [v] => write style v
  | v :: w :: vs => write style v ++ style.itemMark ++ writeItems style (w :: vs)

def writeMembers (style : Style) : List (Text × Value) → Text
  | [] => []
  | [(k, v)] => stringText style.ascii k ++ style.nameMark ++ write style v
  | (k, v) :: m :: ms =>
    stringText style.ascii k ++ style.nameMark ++ write style v ++ style.itemMark ++
      writeMembers style (m :: ms)

end

def newLine (depth : Nat) : Text := '\n' :: List.replicate (2 * depth) ' '

mutual

def indentedAt (depth : Nat) : Value → Text
  | .list (v :: vs) =>
    '[' :: (indentedItems (depth + 1) (v :: vs) ++ newLine depth ++ [']'])
  | .map (m :: ms) =>
    '{' :: (indentedMembers (depth + 1) (m :: ms) ++ newLine depth ++ ['}'])
  | v => write plain v

def indentedItems (depth : Nat) : List Value → Text
  | [] => []
  | [v] => newLine depth ++ indentedAt depth v
  | v :: w :: vs => newLine depth ++ indentedAt depth v ++ "," ++ indentedItems depth (w :: vs)

def indentedMembers (depth : Nat) : List (Text × Value) → Text
  | [] => []
  | [(k, v)] => newLine depth ++ stringText false k ++ ": " ++ indentedAt depth v
  | (k, v) :: m :: ms =>
    newLine depth ++ stringText false k ++ ": " ++ indentedAt depth v ++ "," ++
      indentedMembers depth (m :: ms)

end

def indented (v : Value) : Text := indentedAt 0 v

end Crosswalk.Json
