import Crosswalk.Yaml.Scalar

/-!
# Reading yaml

A block of lines is a map or a list by the indentation of its lines. A value on the line of its name
is a scalar, or a list or map between brackets, and goes on over the lines that are deeper.

* `Yaml.read s`: the value written in `s`; nothing but blanks and comments is null.
-/

namespace Crosswalk.Yaml

open Text

def isBlankChar (c : Char) : Bool := c == ' ' || c == '\t' || c == '\n'

def skipBlanks (s : Text) : Text := s.dropWhile isBlankChar

/-- A scalar without quotes up to a comment. -/
def dropComment (s : Text) : Text :=
  match cut? " #" s with
  | some (a, _) => trim a
  | none => trim s

/-- Whether nothing is left but blanks and a comment. -/
def isFinished (s : Text) : Bool :=
  match skipBlanks s with
  | [] => true
  | c :: _ => c == '#'

/-! ## Between brackets -/

/-- Whether a scalar without quotes ends before a text between brackets. -/
def endsPlain : Text → Bool
  | [] => true
  | ':' :: c :: _ => isBlankChar c || c ∈ (",[]{}" : Text)
  | [':'] => true
  | ' ' :: '#' :: _ => true
  | c :: _ => c ∈ (",[]{}" : Text)

def takePlain : Text → Text × Text
  | [] => ([], [])
  | c :: s =>
    if endsPlain (c :: s) then ([], c :: s) else (c :: (takePlain s).1, (takePlain s).2)

/-- A scalar between brackets. -/
def readFlowScalar (s : Text) : Read Value :=
  match readQuoted s with
  | some r => r.map fun p => (.str p.1, p.2)
  | none =>
    match takePlain s with
    | ([], _) => .error .strangeStart
    | (plain, rest) =>
      if plain.head?.any isStrangeStart then .error .strangeStart
      else .ok (plainValue (trim plain), rest)

/-- The name of a member between brackets. -/
def readFlowName (s : Text) : Read Text :=
  match readQuoted s with
  | some r => r
  | none =>
    match takePlain s with
    | ([], _) => .error .strangeStart
    | (plain, rest) => .ok (trim plain, rest)

mutual

def readFlow : Nat → Text → Read Value
  | 0, _ => .error .openList
  | fuel + 1, s =>
    match s with
    | '[' :: t => (readFlowItems fuel (skipBlanks t)).map fun p => (.list p.1, p.2)
    | '{' :: t =>
      (readFlowMembers fuel (skipBlanks t)).map fun p => (.map (Pairs.ofList p.1), p.2)
    | t => readFlowScalar t

def readFlowItems : Nat → Text → Except YamlFault (List Value × Text)
  | 0, _ => .error .openList
  | fuel + 1, s =>
    match s with
    | [] => .error .openList
    | ']' :: t => .ok ([], t)
    | t => do
      let (v, rest) ← readFlow fuel t
      match skipBlanks rest with
      | ',' :: u =>
        let (vs, rest) ← readFlowItems fuel (skipBlanks u)
        pure (v :: vs, rest)
      | ']' :: u => pure ([v], u)
      | _ => .error .openList

def readFlowMembers : Nat → Text → Except YamlFault (List (Text × Value) × Text)
  | 0, _ => .error .openMap
  | fuel + 1, s =>
    match s with
    | [] => .error .openMap
    | '}' :: t => .ok ([], t)
    | t => do
      let (k, rest) ← readFlowName t
      let (v, rest) ← readFlowMember fuel (skipBlanks rest)
      match skipBlanks rest with
      | ',' :: u =>
        let (ms, rest) ← readFlowMembers fuel (skipBlanks u)
        pure ((k, v) :: ms, rest)
      | '}' :: u => pure ([(k, v)], u)
      | _ => .error .openMap

/-- The value behind a name, null when there is none. -/
def readFlowMember : Nat → Text → Read Value
  | 0, _ => .error .openMap
  | fuel + 1, s =>
    match s with
    | ':' :: t =>
      match skipBlanks t with
      | ',' :: u => .ok (.null, ',' :: u)
      | '}' :: u => .ok (.null, '}' :: u)
      | u => readFlow fuel u
    | t => .ok (.null, t)

end

/-! ## Lines -/

/-- A line without the blanks at its ends. -/
structure Row where
  indent : Nat
  text : Text
  deriving DecidableEq

/-- A line that is not blank and holds more than a comment. -/
def Row.ofLine? (line : Text) : Option Row :=
  let t := trim line
  if t = [] ∨ t.head? = some '#' then none
  else some ⟨(line.takeWhile (· == ' ')).length, t⟩

/-- The lines of a text, less the mark at which a document starts. -/
def rowsOf (s : Text) : List Row :=
  match (cutsAt (· == '\n') s).filterMap Row.ofLine? with
  | [] => []
  | row :: rows => if row = ⟨0, "---"⟩ then rows else row :: rows

def Row.isItem (r : Row) : Bool := r.text == ['-'] || startsWith "- " r.text

/-- The name that a line starts with, and what follows its colon. -/
def cutPlainName? : Text → Option (Text × Text)
  | [] => none
  | ':' :: s =>
    match s with
    | [] => some ([], [])
    | c :: t => if isBlankChar c then some ([], t) else (cutPlainName? (c :: t)).map (shift ':')
  | ' ' :: '#' :: _ => none
  | c :: s => (cutPlainName? s).map (shift c)
where
  /-- One more character in front of a name. -/
  shift (c : Char) (p : Text × Text) : Text × Text := (c :: p.1, p.2)

def cutName? (s : Text) : Option (Text × Text) :=
  match readQuoted s with
  | some (.ok (name, rest)) =>
    match skipBlanks rest with
    | [':'] => some (name, [])
    | ':' :: c :: t => if isBlankChar c then some (name, t) else none
    | _ => none
  | some (.error _) => none
  | none =>
    if s.head?.any isStrangeStart then none
    else (cutPlainName? s).map fun p => (trim p.1, p.2)

/-! ## Values on a line -/

/-- The value that is written on a line and on the deeper lines after it. -/
def readInline (s : Text) : Except YamlFault Value :=
  match s with
  | '[' :: _ => do
    let (v, rest) ← readFlow (s.length + 1) s
    if isFinished rest then pure v else .error .misplaced
  | '{' :: _ => do
    let (v, rest) ← readFlow (s.length + 1) s
    if isFinished rest then pure v else .error .misplaced
  | t =>
    match readQuoted t with
    | some r => do
      let (text, rest) ← r
      if isFinished rest then pure (.str text) else .error .misplaced
    | none =>
      if t.head?.any isStrangeStart then .error .strangeStart
      else if (cutPlainName? t).isSome then .error .nestedPair
      else .ok (plainValue (dropComment t))

/-- The value that starts in the middle of a line, and the lines after it. -/
def readOnLine (indent : Nat) (s : Text) (rows : List Row) :
    Except YamlFault (Value × List Row) := do
  let deeper := rows.takeWhile fun r => indent < r.indent
  let v ← readInline (joinWith [' '] (s :: deeper.map (·.text)))
  pure (v, rows.dropWhile fun r => indent < r.indent)

/-! ## Blocks -/

mutual

/-- The block whose first line is the first one. -/
def readBlock : Nat → List Row → Except YamlFault (Value × List Row)
  | 0, _ => .error .misplaced
  | _, [] => .ok (.null, [])
  | fuel + 1, row :: rows =>
    if row.isItem then
      (readItems fuel row.indent (row :: rows)).map fun p => (.list p.1, p.2)
    else if (cutName? row.text).isSome then
      (readMembers fuel row.indent (row :: rows)).map fun p => (.map (Pairs.ofList p.1), p.2)
    else
      (readInline (joinWith [' '] (row.text :: rows.map (·.text)))).map fun v => (v, [])

/-- The items at an indentation. -/
def readItems : Nat → Nat → List Row → Except YamlFault (List Value × List Row)
  | 0, _, _ => .error .misplaced
  | _, _, [] => .ok ([], [])
  | fuel + 1, indent, row :: rows =>
    if row.indent = indent ∧ row.isItem then do
      let inner := trimStart (row.text.drop 1)
      let (v, rest) ←
        if isFinished inner then readBelow fuel indent false rows
        else
          let place := indent + (row.text.length - inner.length)
          if Row.isItem ⟨place, inner⟩ || (cutName? inner).isSome then
            readBlock fuel (⟨place, inner⟩ :: rows)
          else readOnLine indent inner rows
      let (vs, rest) ← readItems fuel indent rest
      pure (v :: vs, rest)
    else if indent < row.indent then .error .misplaced
    else .ok ([], row :: rows)

/-- The members at an indentation. -/
def readMembers : Nat → Nat → List Row → Except YamlFault (List (Text × Value) × List Row)
  | 0, _, _ => .error .misplaced
  | _, _, [] => .ok ([], [])
  | fuel + 1, indent, row :: rows =>
    if row.indent = indent then
      match cutName? row.text with
      | none => .error (if row.isItem then .misplaced else .lonelyKey)
      | some (name, after) => do
        let inner := trimStart after
        let (v, rest) ←
          if isFinished inner then readBelow fuel indent true rows
          else readOnLine indent inner rows
        let (ms, rest) ← readMembers fuel indent rest
        pure ((name, v) :: ms, rest)
    else if indent < row.indent then .error .misplaced
    else .ok ([], row :: rows)

/-- The value below a line that holds none itself: a deeper block, or null. The items of a member
may stand at its own indentation. -/
def readBelow : Nat → Nat → Bool → List Row → Except YamlFault (Value × List Row)
  | 0, _, _, _ => .error .misplaced
  | _, _, _, [] => .ok (.null, [])
  | fuel + 1, indent, isMember, row :: rows =>
    if indent < row.indent then readBlock fuel (row :: rows)
    else if isMember && row.indent == indent && row.isItem then
      (readItems fuel indent (row :: rows)).map fun p => (.list p.1, p.2)
    else .ok (.null, row :: rows)

end

def read (s : Text) : Except YamlFault Value := do
  let s := match s with | '\uFEFF' :: t => t | t => t
  let (v, rest) ← readBlock (3 * s.length + 3) (rowsOf s)
  if rest = [] then pure v else .error .misplaced

end Crosswalk.Yaml
