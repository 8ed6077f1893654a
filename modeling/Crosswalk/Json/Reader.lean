import Crosswalk.Document.Value
import Crosswalk.Number.Reading

/-!
# Reading json

`Json.read? s` gives the one value written in `s`. A number without point and exponent is whole;
of two members with the same name the last value stays, at the place of the first.
-/

namespace Crosswalk.Json

open Text

def isSpace (c : Char) : Bool := c == ' ' || c == '\n' || c == '\r' || c == '\t'

def skipSpace (s : Text) : Text := s.dropWhile isSpace

/-! ## Strings -/

def hexValue? (c : Char) : Option Nat :=
  let n := c.toNat
  if 0x30 ≤ n ∧ n ≤ 0x39 then some (n - 0x30)
  else if 0x41 ≤ n ∧ n ≤ 0x46 then some (n - 0x37)
  else if 0x61 ≤ n ∧ n ≤ 0x66 then some (n - 0x57)
  else none

/-- Four digits of base sixteen at the head of a text. -/
def readHex? : Text → Option (Nat × Text)
  | a :: b :: c :: d :: s => do
    let w ← hexValue? a
    let x ← hexValue? b
    let y ← hexValue? c
    let z ← hexValue? d
    some (w * 4096 + x * 256 + y * 16 + z, s)
  | _ => none

def isHighHalf (n : Nat) : Bool := 0xD800 ≤ n && n < 0xDC00

def isLowHalf (n : Nat) : Bool := 0xDC00 ≤ n && n < 0xE000

/-- The code of the second half of a pair that a text starts with, and the rest. -/
def readLowHalf? : Text → Option (Nat × Text)
  | '\\' :: 'u' :: s => (readHex? s).filter fun p => isLowHalf p.1
  | _ => none

/-- The character of a code and the rest; a code that is half of a pair takes the other half with
it, and is replaced when it has none. -/
def joinHalves (n : Nat) (s : Text) : Char × Text :=
  match if isHighHalf n then readLowHalf? s else none with
  | some (m, rest) => (ofCode (0x10000 + (n - 0xD800) * 1024 + (m - 0xDC00)), rest)
  | none => (ofCode n, s)

/-- The character after a backslash, and the rest. -/
def readEscape? : Text → Option (Char × Text)
  | '"' :: s => some ('"', s)
  | '\\' :: s => some ('\\', s)
  | '/' :: s => some ('/', s)
  | 'b' :: s => some ('\x08', s)
  | 'f' :: s => some ('\x0c', s)
  | 'n' :: s => some ('\n', s)
  | 'r' :: s => some ('\r', s)
  | 't' :: s => some ('\t', s)
  | 'u' :: s => (readHex? s).map fun p => joinHalves p.1 p.2
  | _ => none

/-- The characters up to the closing quote, and the rest. -/
def readString? : Nat → Text → Option (Text × Text)
  | 0, _ => none
  | _, [] => none
  | fuel + 1, c :: s =>
    if c = '"' then some ([], s)
    else if c = '\\' then
      match readEscape? s with
      | some (d, rest) => (readString? fuel rest).map fun p => (d :: p.1, p.2)
      | none => none
    else if c.toNat < 0x20 then none
    else (readString? fuel s).map fun p => (c :: p.1, p.2)

/-! ## Numbers -/

def takeDigits (s : Text) : Text × Text := (s.takeWhile isAsciiDigit, s.dropWhile isAsciiDigit)

/-- The part of a number after its point, the point included. -/
def takePart (s : Text) : Text × Text :=
  match s with
  | '.' :: t =>
    match takeDigits t with
    | ([], _) => ([], s)
    | (digits, rest) => ('.' :: digits, rest)
  | _ => ([], s)

def takeSign (s : Text) : Text × Text :=
  match s with
  | '-' :: t => (['-'], t)
  | '+' :: t => (['+'], t)
  | _ => ([], s)

def takeExponent (s : Text) : Text × Text :=
  match s with
  | c :: t =>
    if c = 'e' ∨ c = 'E' then
      let (sign, u) := takeSign t
      match takeDigits u with
      | ([], _) => ([], s)
      | (digits, rest) => ('e' :: sign ++ digits, rest)
    else ([], s)
  | [] => ([], s)

def takeWhole (s : Text) : Text × Text :=
  match s with
  | '0' :: t => (['0'], t)
  | _ => takeDigits s

def readNumber? (s : Text) : Option (Value × Text) :=
  let (sign, t) := match s with | '-' :: t => ((['-'] : Text), t) | _ => ([], s)
  let (whole, t) := takeWhole t
  if whole = [] then none
  else
    let (part, t) := takePart t
    let (exponent, t) := takeExponent t
    if part = [] ∧ exponent = [] then (readInt? (sign ++ whole)).map fun n => (.int n, t)
    else (readFloat? (sign ++ whole ++ part ++ exponent)).map fun x => (.float x, t)

/-! ## Values -/

/-- The words that are values. -/
def constants : List (Text × Value) := [
  ("null", .null), ("true", .bool true), ("false", .bool false), ("NaN", .float .nan),
  ("Infinity", .float (.infinite false)), ("-Infinity", .float (.infinite true))]

def readConstant? (s : Text) : Option (Value × Text) :=
  constants.findSome? fun p => (after? p.1 s).map fun rest => (p.2, rest)

mutual

/-- The value at the head of a text. -/
def readValue? : Nat → Text → Option (Value × Text)
  | 0, _ => none
  | fuel + 1, s =>
    match s with
    | '"' :: t => (readString? (t.length + 1) t).map fun p => (.str p.1, p.2)
    | '[' :: t =>
      match skipSpace t with
      | ']' :: rest => some (.list [], rest)
      | u => (readItems? fuel u).map fun p => (.list p.1, p.2)
    | '{' :: t =>
      match skipSpace t with
      | '}' :: rest => some (.map [], rest)
      | u => (readMembers? fuel u).map fun p => (.map (Pairs.ofList p.1), p.2)
    | _ =>
      match readConstant? s with
      | some p => some p
      | none => readNumber? s

/-- The items up to the closing bracket. -/
def readItems? : Nat → Text → Option (List Value × Text)
  | 0, _ => none
  | fuel + 1, s =>
    match readValue? fuel s with
    | none => none
    | some (v, t) =>
      match skipSpace t with
      | ',' :: u => (readItems? fuel (skipSpace u)).map fun p => (v :: p.1, p.2)
      | ']' :: u => some ([v], u)
      | _ => none

/-- The members up to the closing brace. -/
def readMembers? : Nat → Text → Option (List (Text × Value) × Text)
  | 0, _ => none
  | fuel + 1, s =>
    match s with
    | '"' :: t =>
      match readString? (t.length + 1) t with
      | none => none
      | some (k, u) =>
        match skipSpace u with
        | ':' :: w =>
          match readValue? fuel (skipSpace w) with
          | none => none
          | some (v, x) =>
            match skipSpace x with
            | ',' :: y => (readMembers? fuel (skipSpace y)).map fun p => ((k, v) :: p.1, p.2)
            | '}' :: y => some ([(k, v)], y)
            | _ => none
        | _ => none
    | _ => none

end

def read? (s : Text) : Option Value :=
  match readValue? (2 * s.length + 2) (skipSpace s) with
  | some (v, rest) => if skipSpace rest = [] then some v else none
  | none => none

end Crosswalk.Json
