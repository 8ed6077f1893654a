import Crosswalk.Json.Reader
import Crosswalk.Query.Jmes.Expr
import Crosswalk.Text.Word

/-!
# Tokens of JMESPath

`tokens? s` cuts an expression into its tokens. Between backquotes stands a json value; what is no
json is a text without quotes.
-/

namespace Crosswalk.Jmes

open Text

inductive Token where
  | dot
  | star
  | comma
  | colon
  | current
  | openParen
  | closeParen
  | openBrace
  | closeBrace
  | openBracket
  | closeBracket
  | openFilter
  | flatten
  | name (s : Text)
  | quoted (s : Text)
  | literal (v : Value)
  | number (i : Int)
  | pipe
  | or
  | and
  | lazy
  | not
  | compare (c : Comparison)

/-- Marks of one character. -/
def marks : List (Char × Token) := [
  ('.', .dot), ('*', .star), (']', .closeBracket), (',', .comma), (':', .colon), ('@', .current),
  ('(', .openParen), (')', .closeParen), ('{', .openBrace), ('}', .closeBrace)]

def isNamePart (c : Char) : Bool := isNameStart c || isAsciiDigit c

/-- The characters up to the delimiter, which a backslash hides, and the rest. -/
def readUntil? (delimiter : Char) : Text → Option (Text × Text)
  | [] => none
  | c :: s =>
    if c = delimiter then some ([], s)
    else if c = '\\' then
      match s with
      | [] => none
      | d :: t => (readUntil? delimiter t).map fun p => ('\\' :: d :: p.1, p.2)
    else (readUntil? delimiter s).map fun p => (c :: p.1, p.2)

/-- The text of a json string without its quotes. -/
def jsonText? (s : Text) : Option Text := (Json.read? ('"' :: s ++ ['"'])).bind Value.text?

def literal? (s : Text) : Option Value :=
  let t := replaceAll ['\\', '`'] ['`'] s
  match Json.read? t with
  | some v => some v
  | none => (jsonText? (trimStart t)).map .str

def digitsToken (negative : Bool) (digits : Text) : Token :=
  .number (signed negative (ofDigits (digits.filterMap digitValue?)))

/-- The token at the head of a text that starts with no blank, and the rest. -/
def token? : Text → Option (Token × Text)
  | [] => none
  | c :: s =>
    match marks.lookup c with
    | some t => some (t, s)
    | none =>
      if isNameStart c then some (.name (c :: s.takeWhile isNamePart), s.dropWhile isNamePart)
      else if isAsciiDigit c then
        some (digitsToken false (c :: s.takeWhile isAsciiDigit), s.dropWhile isAsciiDigit)
      else
        match c, s with
        | '[', ']' :: t => some (.flatten, t)
        | '[', '?' :: t => some (.openFilter, t)
        | '[', t => some (.openBracket, t)
        | '|', '|' :: t => some (.or, t)
        | '|', t => some (.pipe, t)
        | '&', '&' :: t => some (.and, t)
        | '&', t => some (.lazy, t)
        | '<', '=' :: t => some (.compare .le, t)
        | '<', t => some (.compare .lt, t)
        | '>', '=' :: t => some (.compare .ge, t)
        | '>', t => some (.compare .gt, t)
        | '!', '=' :: t => some (.compare .ne, t)
        | '!', t => some (.not, t)
        | '=', '=' :: t => some (.compare .eq, t)
        | '-', t =>
          let digits := t.takeWhile isAsciiDigit
          if digits = [] then none else some (digitsToken true digits, t.dropWhile isAsciiDigit)
        | '\'', t =>
          (readUntil? '\'' t).map fun p =>
            (.literal (.str (replaceAll ['\\', '\''] ['\''] p.1)), p.2)
        | '"', t => (readUntil? '"' t).bind fun p => (jsonText? p.1).map fun s => (.quoted s, p.2)
        | '`', t => (readUntil? '`' t).bind fun p => (literal? p.1).map fun v => (.literal v, p.2)
        | _, _ => none

def tokensFrom? : Nat → Text → Option (List Token)
  | 0, _ => none
  | fuel + 1, s =>
    let t := s.dropWhile Json.isSpace
    if t = [] then some []
    else (token? t).bind fun p => (tokensFrom? fuel p.2).map fun ts => p.1 :: ts

/-- Every token takes a character. -/
def tokens? (s : Text) : Option (List Token) := tokensFrom? (s.length + 1) s

end Crosswalk.Jmes
