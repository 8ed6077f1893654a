import Crosswalk.Number.Reading
import Crosswalk.Query.JsonPath.Path
import Crosswalk.Text.Word

/-!
# Reading JSONPath

The steps of a path are joined with `..`, `.` and `|`, each of which binds closer than the one
before. Brackets apply to all that stands before them.

* `Path.read? s`: the path that a text writes.
-/

namespace Crosswalk.JsonPath

open Text

/-! ## Tokens -/

inductive Token where
  /-- A single character. -/
  | mark (c : Char)
  | descend
  | name (s : Text)
  | number (i : Int)
  | float (x : Binary64)
  | bool (b : Bool)
  | operator (s : Text)
  | compare (c : Comparison)

def isNamePart (c : Char) : Bool := isNameStart c || isAsciiDigit c || c == '@' || c == '-'

def marks : List Char := ['*', '.', '[', ']', '(', ')', '$', ',', ':', '|', '&', '?', '@']

/-- The characters up to the delimiter, and the rest; a backslash stands before a character that
is taken as it is. -/
def readUntil? (delimiter : Char) : Text → Option (Text × Text)
  | [] => none
  | c :: s =>
    if c = delimiter then some ([], s)
    else if c = '\\' then
      match s with
      | [] => none
      | d :: t => (readUntil? delimiter t).map fun p => (d :: p.1, p.2)
    else (readUntil? delimiter s).map fun p => (c :: p.1, p.2)

/-- A whole number, or one with a point between digits, and the rest. -/
def number? (s : Text) : Option (Token × Text) :=
  let (negative, t) := match s with | '-' :: t => (true, t) | t => (false, t)
  match readDigits t with
  | ([], _) => none
  | (digits, '.' :: rest) =>
    match readDigits rest with
    | ([], _) => some (.number (signed negative (ofDigits digits)), '.' :: rest)
    | (part, more) =>
      some (.float (.ofDecimal negative (ofDigits (digits ++ part)) (-part.length)), more)
  | (digits, rest) => some (.number (signed negative (ofDigits digits)), rest)

/-- Words that are no names. -/
def isReserved (s : Text) : Bool := s == ("where" : Text) || s == ("wherenot" : Text)

def name? (s : Text) : Option (Token × Text) :=
  let (leader, t) := match s with | '@' :: t => (['@'], t) | t => ([], t)
  match t with
  | c :: u =>
    let name := leader ++ c :: u.takeWhile isNamePart
    if isNameStart c && !isReserved name then some (.name name, u.dropWhile isNamePart) else none
  | [] => none

def comparison? : Text → Option (Token × Text)
  | '=' :: '=' :: s => some (.compare .eq, s)
  | '=' :: '~' :: _ => none
  | '=' :: s => some (.compare .eq, s)
  | '!' :: '=' :: s => some (.compare .ne, s)
  | '<' :: '=' :: s => some (.compare .le, s)
  | '<' :: s => some (.compare .lt, s)
  | '>' :: '=' :: s => some (.compare .ge, s)
  | '>' :: s => some (.compare .gt, s)
  | _ => none

/-- The token at the head of a text, and the rest. -/
def token? (s : Text) : Option (Token × Text) :=
  match after? "true" s, after? "false" s with
  | some t, _ => some (.bool true, t)
  | _, some t => some (.bool false, t)
  | none, none =>
    match name? s with
    | some p => some p
    | none =>
      match number? s with
      | some p => some p
      | none =>
        match s with
        | '.' :: '.' :: t => some (.descend, t)
        | '\'' :: t => (readUntil? '\'' t).map fun p => (.name p.1, p.2)
        | '"' :: t => (readUntil? '"' t).map fun p => (.name p.1, p.2)
        | '`' :: t => (readUntil? '`' t).map fun p => (.operator p.1, p.2)
        | c :: t => if c ∈ marks then some (.mark c, t) else comparison? s
        | [] => none

def isSpace (c : Char) : Bool := c == ' ' || c == '\t' || c == '\n'

def tokensFrom? : Nat → Text → Option (List Token)
  | 0, _ => none
  | fuel + 1, s =>
    let t := s.dropWhile isSpace
    if t = [] then some []
    else (token? t).bind fun p => (tokensFrom? fuel p.2).map fun ts => p.1 :: ts

/-- Every token takes a character. -/
def tokens? (s : Text) : Option (List Token) := tokensFrom? (s.length + 1) s

/-! ## Paths -/

/-- What was read, and the tokens after it. -/
abbrev Reading (α : Type) := Option (α × List Token)

/-- How closely a token binds what stands before it. -/
def power : List Token → Nat
  | .descend :: _ => 1
  | .mark '.' :: _ => 2
  | .mark '|' :: _ => 3
  | _ => 0

/-- Further names, each after a comma. -/
def moreNames : List Token → List Text × List Token
  | .mark ',' :: .name s :: ts => let p := moreNames ts; (s :: p.1, p.2)
  | ts => ([], ts)

def moreNumbers : List Token → List Int × List Token
  | .mark ',' :: .number i :: ts => let p := moreNumbers ts; (i :: p.1, p.2)
  | ts => ([], ts)

/-- A number that may be left out. -/
def bound : List Token → Option Int × List Token
  | .number i :: ts => (some i, ts)
  | ts => (none, ts)

/-- A slice up to the closing bracket. -/
def slice? (ts : List Token) : Reading Path :=
  let (start, ts) := bound ts
  match ts with
  | .mark ':' :: ts =>
    let (stop, ts) := bound ts
    match ts with
    | .mark ']' :: rest => some (.slice ⟨start, stop, none⟩, rest)
    | .mark ':' :: ts =>
      let (step, ts) := bound ts
      match ts with
      | .mark ']' :: rest => some (.slice ⟨start, stop, step⟩, rest)
      | _ => none
    | _ => none
  | _ => none

/-- What stands between brackets, filters excepted. -/
def bracket? (ts : List Token) : Reading Path :=
  match ts with
  | .mark '*' :: .mark ']' :: rest => some (.items, rest)
  | .name s :: ts =>
    match moreNames ts with
    | (names, .mark ']' :: rest) => some (.fields (s :: names), rest)
    | _ => none
  | .number i :: ts' =>
    match moreNumbers ts' with
    | (is, .mark ']' :: rest) => some (.indexes (i :: is), rest)
    | _ => slice? ts
  | _ => slice? ts

def literal? : Token → Option Value
  | .name s => some (.str s)
  | .number i => some (.int i)
  | .float x => some (.float x)
  | .bool b => some (.bool b)
  | _ => none

/-- A comparison with a literal, when one follows. -/
def check? (ts : List Token) : Reading (Option Check) :=
  match ts with
  | .compare c :: t :: rest => (literal? t).map fun v => (some ⟨c, v⟩, rest)
  | .compare _ :: [] => none
  | _ => some (none, ts)

mutual

/-- The path at the head of the tokens that binds closer than `least`. -/
def path? : Nat → Nat → List Token → Reading Path
  | 0, _, _ => none
  | fuel + 1, least, ts =>
    match step? fuel ts with
    | some (p, rest) => extend? fuel least p rest
    | none => none

def step? : Nat → List Token → Reading Path
  | 0, _ => none
  | fuel + 1, ts =>
    match ts with
    | .mark '$' :: ts => some (.root, ts)
    | .mark '@' :: ts => some (.this, ts)
    | .mark '*' :: ts => some (.anyField, ts)
    | .name s :: ts => let p := moreNames ts; some (.fields (s :: p.1), p.2)
    | .operator s :: ts =>
      if s = "this" then some (.this, ts) else if s = "len" then some (.length, ts) else none
    | .mark '(' :: ts =>
      match path? fuel 0 ts with
      | some (p, .mark ')' :: rest) => some (p, rest)
      | _ => none
    | .mark '[' :: ts => bracket? ts
    | _ => none

/-- The path that starts with `left`. -/
def extend? : Nat → Nat → Path → List Token → Reading Path
  | 0, _, _, _ => none
  | fuel + 1, least, left, ts =>
    match ts with
    | .mark '[' :: .mark '?' :: ts' =>
      if 0 < least then some (left, ts)
      else
        match tests? fuel ts' with
        | some (tests, .mark ']' :: rest) => extend? fuel least (.child left (.filter tests)) rest
        | _ => none
    | .mark '[' :: ts' =>
      if 0 < least then some (left, ts)
      else
        match bracket? ts' with
        | some (p, rest) => extend? fuel least (.child left p) rest
        | none => none
    | t :: ts' =>
      if least < power ts then
        match path? fuel (power ts) ts' with
        | some (right, rest) =>
          let joined := match t with
            | .descend => Path.descend left right
            | .mark '|' => .union left right
            | _ => .child left right
          extend? fuel least joined rest
        | none => none
      else some (left, ts)
    | [] => some (left, [])

/-- Tests that are joined with `&`. -/
def tests? : Nat → List Token → Reading (List (Path × Option Check))
  | 0, _ => none
  | fuel + 1, ts =>
    match test? fuel ts with
    | some (tests, .mark '&' :: rest) =>
      (tests? fuel rest).map fun p => (tests ++ p.1, p.2)
    | r => r

/-- One test, or several between parentheses. -/
def test? : Nat → List Token → Reading (List (Path × Option Check))
  | 0, _ => none
  | fuel + 1, ts =>
    let plain : Reading (List (Path × Option Check)) :=
      match path? fuel 0 ts with
      | some (p, rest) => (check? rest).map fun q => ([(p, q.1)], q.2)
      | none => none
    match plain, ts with
    | some r, _ => some r
    | none, .mark '(' :: ts' =>
      match tests? fuel ts' with
      | some (tests, .mark ')' :: rest) => some (tests, rest)
      | _ => none
    | none, _ => none

end

/-- Between two tokens at most four steps are nested. -/
def Path.read? (s : Text) : Option Path :=
  (tokens? s).bind fun ts =>
    match path? (8 * ts.length + 8) 0 ts with
    | some (p, []) => some p
    | _ => none

end Crosswalk.JsonPath
