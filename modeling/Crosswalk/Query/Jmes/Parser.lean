import Crosswalk.Query.Jmes.Token

/-!
# Reading JMESPath

Each token binds with a power. An operator takes on its right what binds closer than it does, and
a projection ends at the first token that binds below `projectionEnd`.

* `Expr.read? s`: the expression that a text writes.
-/

namespace Crosswalk.Jmes

open Text

/-- How closely a token binds what stands before it; the end of the text binds nothing. -/
def power : List Token → Nat
  | .pipe :: _ => 1
  | .or :: _ => 2
  | .and :: _ => 3
  | .compare _ :: _ => 5
  | .flatten :: _ => 9
  | .star :: _ => 20
  | .openFilter :: _ => 21
  | .dot :: _ => 40
  | .not :: _ => 45
  | .openBrace :: _ => 50
  | .openBracket :: _ => 55
  | .openParen :: _ => 60
  | _ => 0

def projectionEnd : Nat := 10

/-- What was read, and the tokens after it. -/
abbrev Reading (α : Type) := Option (α × List Token)

/-- The parts of a slice up to the closing bracket, where `done` parts stand before. A number
that follows another one replaces it. -/
def readSlice? : Nat → Slice → List Token → Reading Slice
  | _, s, .closeBracket :: ts => some (s, ts)
  | done, s, .colon :: ts => if done < 2 then readSlice? (done + 1) s ts else none
  | 0, s, .number i :: ts => readSlice? 0 { s with start := some i } ts
  | 1, s, .number i :: ts => readSlice? 1 { s with stop := some i } ts
  | 2, s, .number i :: ts => readSlice? 2 { s with step := some i } ts
  | _, _, _ => none

/-- A position or a slice after an opening bracket. -/
def readIndex? (ts : List Token) : Reading Expr :=
  match ts with
  | .number i :: .closeBracket :: rest => some (.index i, rest)
  | .colon :: _ => (readSlice? 0 ⟨none, none, none⟩ ts).map fun p => (.slice p.1, p.2)
  | .number _ :: .colon :: _ =>
    (readSlice? 0 ⟨none, none, none⟩ ts).map fun p => (.slice p.1, p.2)
  | _ => none

def startsIndex : List Token → Bool
  | .number _ :: _ => true
  | .colon :: _ => true
  | _ => false

mutual

/-- The expression at the head of the tokens that binds closer than `bound`. -/
def expression? : Nat → Nat → List Token → Reading Expr
  | 0, _, _ => none
  | fuel + 1, bound, ts =>
    match operand? fuel ts with
    | some (left, rest) => extend? fuel bound left rest
    | none => none

/-- The expression that starts with `left`. -/
def extend? : Nat → Nat → Expr → List Token → Reading Expr
  | 0, _, _, _ => none
  | fuel + 1, bound, left, ts =>
    if bound < power ts then
      match operator? fuel left ts with
      | some (left, rest) => extend? fuel bound left rest
      | none => none
    else some (left, ts)

/-- The operand at the head of the tokens. -/
def operand? : Nat → List Token → Reading Expr
  | 0, _ => none
  | fuel + 1, ts =>
    match ts with
    | .literal v :: ts => some (.literal v, ts)
    | .name s :: ts => some (.field s, ts)
    | .quoted _ :: .openParen :: _ => none
    | .quoted s :: ts => some (.field s, ts)
    | .current :: ts => some (.current, ts)
    | .star :: .closeBracket :: ts => some (.projectValues .current .current, .closeBracket :: ts)
    | .star :: ts => (projected? fuel 20 ts).map fun p => (.projectValues .current p.1, p.2)
    | .openFilter :: ts => filtered? fuel .current ts
    | .openBrace :: ts => (members? fuel ts).map fun p => (.hash p.1, p.2)
    | .openParen :: ts =>
      match expression? fuel 0 ts with
      | some (e, .closeParen :: rest) => some (e, rest)
      | _ => none
    | .flatten :: ts =>
      (projected? fuel 9 ts).map fun p => (.project (.flatten .current) p.1, p.2)
    | .not :: ts => (expression? fuel 45 ts).map fun p => (.not p.1, p.2)
    | .openBracket :: .star :: .closeBracket :: ts =>
      (projected? fuel 20 ts).map fun p => (.project .current p.1, p.2)
    | .openBracket :: ts =>
      if startsIndex ts then position? fuel .current ts
      else (items? fuel ts).map fun p => (.list p.1, p.2)
    | .lazy :: ts => (expression? fuel 0 ts).map fun p => (.lazy p.1, p.2)
    | _ => none

/-- The operator at the head of the tokens, on the operand `left`. -/
def operator? : Nat → Expr → List Token → Reading Expr
  | 0, _, _ => none
  | fuel + 1, left, ts =>
    match ts with
    | .dot :: .star :: ts =>
      (projected? fuel 40 ts).map fun p => (.projectValues left p.1, p.2)
    | .dot :: ts => (member? fuel 40 ts).map fun p => (.chain left p.1, p.2)
    | .pipe :: ts => (expression? fuel 1 ts).map fun p => (.chain left p.1, p.2)
    | .or :: ts => (expression? fuel 2 ts).map fun p => (.or left p.1, p.2)
    | .and :: ts => (expression? fuel 3 ts).map fun p => (.and left p.1, p.2)
    | .compare c :: ts => (expression? fuel 5 ts).map fun p => (.compare c left p.1, p.2)
    | .flatten :: ts => (projected? fuel 9 ts).map fun p => (.project (.flatten left) p.1, p.2)
    | .openFilter :: ts => filtered? fuel left ts
    | .openBracket :: .star :: .closeBracket :: ts =>
      (projected? fuel 20 ts).map fun p => (.project left p.1, p.2)
    | .openBracket :: ts => if startsIndex ts then position? fuel left ts else none
    | .openParen :: ts =>
      match left with
      | .field name => (arguments? fuel ts).map fun p => (.call name p.1, p.2)
      | _ => none
    | _ => none

/-- A position of `left`, or a slice, which projects what follows it. A slice of a position does
not. -/
def position? : Nat → Expr → List Token → Reading Expr
  | 0, _, _ => none
  | fuel + 1, left, ts =>
    match readIndex? ts with
    | none => none
    | some (right, rest) =>
      match left, right with
      | .indexed first second, _ => some (.indexed (.chain first second) right, rest)
      | _, .slice _ =>
        (projected? fuel 20 rest).map fun p => (.project (.indexed left right) p.1, p.2)
      | _, _ => some (.indexed left right, rest)

/-- What a projection does with each item. -/
def projected? : Nat → Nat → List Token → Reading Expr
  | 0, _, _ => none
  | fuel + 1, bound, ts =>
    if power ts < projectionEnd then some (.current, ts)
    else
      match ts with
      | .openBracket :: _ => expression? fuel bound ts
      | .openFilter :: _ => expression? fuel bound ts
      | .dot :: ts => member? fuel bound ts
      | _ => none

/-- What may stand after a point. -/
def member? : Nat → Nat → List Token → Reading Expr
  | 0, _, _ => none
  | fuel + 1, bound, ts =>
    match ts with
    | .name _ :: _ => expression? fuel bound ts
    | .quoted _ :: _ => expression? fuel bound ts
    | .star :: _ => expression? fuel bound ts
    | .openBracket :: ts => (items? fuel ts).map fun p => (.list p.1, p.2)
    | .openBrace :: ts => (members? fuel ts).map fun p => (.hash p.1, p.2)
    | _ => none

/-- A condition on the items of `left`, up to its closing bracket, and what is done with those
that meet it. -/
def filtered? : Nat → Expr → List Token → Reading Expr
  | 0, _, _ => none
  | fuel + 1, left, ts =>
    match expression? fuel 0 ts with
    | some (condition, .closeBracket :: .flatten :: rest) =>
      some (.filter left .current condition, .flatten :: rest)
    | some (condition, .closeBracket :: rest) =>
      (projected? fuel 21 rest).map fun p => (.filter left p.1 condition, p.2)
    | _ => none

/-- Items up to the closing bracket. -/
def items? : Nat → List Token → Reading (List Expr)
  | 0, _ => none
  | fuel + 1, ts =>
    match expression? fuel 0 ts with
    | some (e, .closeBracket :: rest) => some ([e], rest)
    | some (e, .comma :: rest) => (items? fuel rest).map fun p => (e :: p.1, p.2)
    | _ => none

/-- Members up to the closing brace; the comma between two of them may be left out. -/
def members? : Nat → List Token → Reading (List (Text × Expr))
  | 0, _ => none
  | fuel + 1, ts =>
    let named : Option (Text × List Token) :=
      match ts with
      | .name s :: .colon :: rest => some (s, rest)
      | .quoted s :: .colon :: rest => some (s, rest)
      | _ => none
    match named with
    | none => none
    | some (name, rest) =>
      match expression? fuel 0 rest with
      | some (e, .closeBrace :: rest) => some ([(name, e)], rest)
      | some (e, .comma :: rest) => (members? fuel rest).map fun p => ((name, e) :: p.1, p.2)
      | some (e, rest) => (members? fuel rest).map fun p => ((name, e) :: p.1, p.2)
      | none => none

/-- Arguments up to the closing parenthesis; the comma between two of them may be left out. -/
def arguments? : Nat → List Token → Reading (List Expr)
  | 0, _ => none
  | fuel + 1, ts =>
    match ts with
    | .closeParen :: rest => some ([], rest)
    | _ =>
      match expression? fuel 0 ts with
      | some (e, .comma :: rest) => (arguments? fuel rest).map fun p => (e :: p.1, p.2)
      | some (e, rest) => (arguments? fuel rest).map fun p => (e :: p.1, p.2)
      | none => none

end

/-- Between two tokens at most four steps are nested. -/
def Expr.read? (s : Text) : Option Expr :=
  (tokens? s).bind fun ts =>
    match expression? (8 * ts.length + 8) 0 ts with
    | some (e, []) => some e
    | _ => none

end Crosswalk.Jmes
