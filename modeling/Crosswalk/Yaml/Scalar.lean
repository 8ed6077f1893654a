import Crosswalk.Document.Value
import Crosswalk.Json.Reader

/-!
# Scalars of yaml

A scalar without quotes is a null, a truth value or a number when it has the form of one, and else
a text.

* `Yaml.plainValue s`: the value of a scalar without quotes.
* `Yaml.readQuoted s`: the text between quotes at the head of `s`, and the rest.
-/

namespace Crosswalk

/-- Why a text is no yaml. -/
inductive YamlFault where
  | openList
  | openMap
  | openQuote
  | nestedPair
  | lonelyKey
  | misplaced
  | strangeStart
  deriving DecidableEq

/-- The first line of the words for a fault. -/
def YamlFault.message : YamlFault → Text
  | .openList => "while parsing a flow sequence"
  | .openMap => "while parsing a flow mapping"
  | .openQuote => "while scanning a quoted scalar"
  | .nestedPair => "mapping values are not allowed here"
  | .lonelyKey => "while scanning a simple key"
  | .misplaced => "while parsing a block mapping"
  | .strangeStart => "while scanning for the next token"

namespace Yaml

open Text

abbrev Read (α : Type) := Except YamlFault (α × Text)

/-! ## Scalars without quotes -/

def nullWords : List Text := ["", "~", "null", "Null", "NULL"]

def trueWords : List Text := [
  "yes", "Yes", "YES", "true", "True", "TRUE", "on", "On", "ON"]

def falseWords : List Text := [
  "no", "No", "NO", "false", "False", "FALSE", "off", "Off", "OFF"]

/-- The digits of a number in a base, underscores left out, or nothing when another character is
there. -/
def digitsOf? (base : Nat) (s : Text) : Option (List Nat) :=
  (s.filter (· != '_')).mapM fun c => (Json.hexValue? c).filter (· < base)

def valueOf (base : Nat) (digits : List Nat) : Nat := digits.foldl (fun n d => base * n + d) 0

/-- A number in a base, which has a digit. -/
def inBase? (base : Nat) (s : Text) : Option Nat :=
  if s = [] then none else (digitsOf? base s).map (valueOf base)

/-- A number of units of which sixty make the next one. -/
def sixties? (s : Text) : Option Nat :=
  match cutsAt (· == ':') s with
  | first :: second :: more =>
    if first.head?.any (fun c => c != '0' && isAsciiDigit c) &&
        (second :: more).all (fun t => t != [] && t.length ≤ 2 && t.all isAsciiDigit) then
      ((first :: second :: more).mapM (digitsOf? 10)).bind fun parts =>
        if parts.tail.all (fun ds => valueOf 10 ds < 60) then
          some (valueOf 60 (parts.map (valueOf 10)))
        else none
    else none
  | _ => none

def natural? (s : Text) : Option Nat :=
  match s with
  | ['0'] => some 0
  | '0' :: 'b' :: t => inBase? 2 t
  | '0' :: 'x' :: t => inBase? 16 t
  | '0' :: t => inBase? 8 t
  | c :: t => if isAsciiDigit c then (inBase? 10 (c :: t)).or (sixties? s) else none
  | [] => none

/-- The exponent of a float: nothing, or a mark, a sign and digits. -/
def isExponent (s : Text) : Bool :=
  match s with
  | [] => true
  | e :: sign :: d :: ds =>
    (e == 'e' || e == 'E') && (sign == '+' || sign == '-') && (d :: ds).all isAsciiDigit
  | _ => false

/-- Digits with a point among them, and an exponent. -/
def isFloatForm (s : Text) : Bool :=
  let isPart := fun c => isAsciiDigit c || c == '_'
  match s.dropWhile isPart with
  | '.' :: t =>
    s.head?.any (fun c => isAsciiDigit c || (c == '.' && t.head?.any isAsciiDigit)) &&
      isExponent (t.dropWhile isPart)
  | _ => false

def infiniteWords : List Text := [".inf", ".Inf", ".INF"]

def nanWords : List Text := [".nan", ".NaN", ".NAN"]

def float? (negative : Bool) (s : Text) : Option Binary64 :=
  if infiniteWords.elem s then some (.infinite negative)
  else if isFloatForm s then readUnsigned? negative (s.filter (· != '_'))
  else none

def number? (s : Text) : Option Value :=
  let (negative, t) := readSign s
  ((natural? t).map fun n => Value.int (signed negative n)).or ((float? negative t).map .float)

def plainValue (s : Text) : Value :=
  if nullWords.elem s then .null
  else if trueWords.elem s then .bool true
  else if falseWords.elem s then .bool false
  else if nanWords.elem s then .float .nan
  else (number? s).getD (.str s)

/-- Characters with which no scalar without quotes starts. -/
def isStrangeStart (c : Char) : Bool := c ∈ (",[]{}#&*!|>'\"%@`" : Text)

/-! ## Scalars between quotes -/

/-- The text up to a single quote; a quote in the text is written twice. -/
def readSingle : Text → Read Text
  | [] => .error .openQuote
  | '\'' :: s =>
    match s with
    | '\'' :: t => (readSingle t).map fun p => ('\'' :: p.1, p.2)
    | t => .ok ([], t)
  | c :: s => (readSingle s).map fun p => (c :: p.1, p.2)

/-- Letters that stand for a character behind a backslash. -/
def escapes : List (Char × Char) := [
  ('0', '\x00'), ('a', '\x07'), ('b', '\x08'), ('t', '\t'), ('n', '\n'), ('v', '\x0b'),
  ('f', '\x0c'), ('r', '\r'), ('e', '\x1b'), (' ', ' '), ('"', '"'), ('\\', '\\'), ('/', '/'),
  ('N', '\u0085'), ('_', '\u00a0'), ('L', '\u2028'), ('P', '\u2029')]

/-- How many digits a character code has behind a letter. -/
def codeWidths : List (Char × Nat) := [('x', 2), ('u', 4), ('U', 8)]

/-- The character behind a backslash, and how many characters write it. -/
def readEscape? : Text → Option (Char × Nat)
  | [] => none
  | c :: s =>
    match escapes.lookup c, codeWidths.lookup c with
    | some d, _ => some (d, 1)
    | none, some width =>
      if s.length < width then none
      else (digitsOf? 16 (s.take width)).map fun ds => (Char.ofNat (valueOf 16 ds), width + 1)
    | none, none => none

/-- The text up to a double quote, after `skip` characters that are read already. -/
def readDouble : Nat → Text → Read Text
  | _, [] => .error .openQuote
  | skip + 1, _ :: s => readDouble skip s
  | 0, c :: s =>
    if c = '"' then .ok ([], s)
    else if c = '\\' then
      match readEscape? s with
      | some (d, n) => (readDouble n s).map fun p => (d :: p.1, p.2)
      | none => .error .openQuote
    else (readDouble 0 s).map fun p => (c :: p.1, p.2)

/-- The text between quotes at the head of a text, if quotes are there. -/
def readQuoted : Text → Option (Read Text)
  | '\'' :: s => some (readSingle s)
  | '"' :: s => some (readDouble 0 s)
  | _ => none

example : plainValue "1950" = .int 1950 := by rfl

example : ((readQuoted "'it''s' x").bind Except.toOption).map (·.1) = some ("it's" : Text) := by
  decide

end Yaml
end Crosswalk
