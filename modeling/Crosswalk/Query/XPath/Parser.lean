import Crosswalk.Query.XPath.Expr
import Crosswalk.Query.XPath.Number
import Crosswalk.Xml.Reader

/-!
# Reading XPath

Expressions are read character by character, each operator after the ones that bind closer. Blanks
may stand between any two parts.

* `Expr.read? s`: the expression that a text writes.
-/

namespace Crosswalk.XPath

open Text

/-- What was read, and the rest of the text. -/
abbrev Reading (α : Type) := Option (α × Text)

def skip (s : Text) : Text := s.dropWhile isBlank

/-- What follows a mark after blanks. -/
def after (mark : Text) (s : Text) : Option Text := (after? mark (skip s)).map skip

/-! ## Names and literals -/

def isNameStart (c : Char) : Bool := Xml.isNameStart c

/-- Characters of names in which colons may stand. -/
def isScanned (c : Char) : Bool := Xml.isNamePart c || c == ':'

def literal? : Text → Reading Text
  | q :: s => if q = '"' ∨ q = '\'' then cutChar? q s else none
  | [] => none

def nodeKinds : List Text := ["comment", "node", "processing-instruction", "text"]

/-- Whether a text goes on with a call: a name that is no kind of node, and a parenthesis. -/
def startsCall (s : Text) : Bool :=
  let name := s.takeWhile isScanned
  (skip (s.dropWhile isScanned)).head? == some '(' && !contains [':', ':'] name &&
    !nodeKinds.elem name

/-- Whether a text starts with something that is not a path. -/
def startsPrimary (s : Text) : Bool :=
  match s with
  | '(' :: _ => true
  | '\'' :: _ => true
  | '"' :: _ => true
  | '.' :: c :: _ => isAsciiDigit c
  | c :: _ => isAsciiDigit c || (isNameStart c && startsCall s)
  | [] => false

/-! ## Tests -/

/-- The test of a kind of nodes after its parenthesis. -/
def kindTest? (kind : Text) (s : Text) : Reading Test :=
  let closed := fun (t : Test) (s : Text) => (after [')'] s).map fun rest => (t, rest)
  if kind = "node" then closed .node s
  else if kind = "text" then closed .text s
  else if kind = "comment" then closed .comment s
  else if kind = "processing-instruction" then
    match literal? (skip s) with
    | some (target, rest) => closed (.instruction (some target)) rest
    | none => closed (.instruction none) s
  else none

/-- The test that follows a name. -/
def testAfter? (name s : Text) : Reading Test :=
  match skip s with
  | '(' :: t => kindTest? name t
  | rest =>
    match s with
    | ':' :: '*' :: t => some (.anyIn name, t)
    | ':' :: t => (Xml.readBase? t).map fun p => (.named name p.1, p.2)
    | _ => some (.named [] name, rest)

def test? (s : Text) : Reading Test :=
  match skip s with
  | '*' :: t => some (.any, t)
  | t => (Xml.readBase? t).bind fun p => testAfter? p.1 p.2

/-- An axis and a test. The child axis is left out, and `@` stands for attributes. -/
def axisTest? (s : Text) : Reading (Axis × Test) :=
  match s with
  | '@' :: t => (test? t).map fun p => ((.attribute, p.1), p.2)
  | '*' :: t => some ((.child, .any), t)
  | _ =>
    match Xml.readBase? s with
    | none => none
    | some (name, t) =>
      match axes.lookup name, after? [':', ':'] (skip t) with
      | some axis, some u => (test? u).map fun p => ((axis, p.1), p.2)
      | _, _ => (testAfter? name t).map fun p => ((.child, p.1), p.2)

/-! ## Operators -/

/-- The node itself and all below it. -/
def everyNode (e : Expr) : Expr := .step e .descendantOrSelf .node []

def comparisonMark? (s : Text) : Reading Comparison :=
  match s with
  | '<' :: '=' :: t => some (.le, t)
  | '<' :: t => some (.lt, t)
  | '>' :: '=' :: t => some (.ge, t)
  | '>' :: t => some (.gt, t)
  | _ => none

def equalityMark? (s : Text) : Reading Comparison :=
  match s with
  | '=' :: t => some (.eq, t)
  | '!' :: '=' :: t => some (.ne, t)
  | _ => none

def sumMark? (s : Text) : Reading Arithmetic :=
  match s with
  | '+' :: t => some (.add, t)
  | '-' :: t => some (.sub, t)
  | _ => none

def productMark? (s : Text) : Reading Arithmetic :=
  match s with
  | '*' :: t => some (.mul, t)
  | 'd' :: 'i' :: 'v' :: t => some (.div, t)
  | 'm' :: 'o' :: 'd' :: t => some (.mod, t)
  | _ => none

/-- The operators, from the one that binds least to the one that binds closest. -/
inductive Level where
  | or
  | and
  | equality
  | comparison
  | sum
  | product
  | union

def Level.closer? : Level → Option Level
  | .or => some .and
  | .and => some .equality
  | .equality => some .comparison
  | .comparison => some .sum
  | .sum => some .product
  | .product => some .union
  | .union => none

/-- The operator of a level at the head of a text. -/
def Level.operator? (l : Level) (s : Text) : Reading (Expr → Expr → Expr) :=
  match l with
  | .or => (after? "or" s).map fun t => (.or, t)
  | .and => (after? "and" s).map fun t => (.and, t)
  | .equality => (equalityMark? s).map fun p => (.compare p.1, p.2)
  | .comparison => (comparisonMark? s).map fun p => (.compare p.1, p.2)
  | .sum => (sumMark? s).map fun p => (.arithmetic p.1, p.2)
  | .product => (productMark? s).map fun p => (.arithmetic p.1, p.2)
  | .union => (after? ['|'] s).map fun t => (.union, t)

/-- The signs before an expression: their count, and the rest. -/
def signs : Text → Nat × Text
  | [] => (0, [])
  | c :: s =>
    if c = '-' then ((signs s).1 + 1, (signs s).2)
    else if isBlank c then signs s
    else (0, c :: s)

/-- The expression under a count of signs: two of them make it a number. -/
def withSigns (n : Nat) (e : Expr) : Expr :=
  if n = 0 then e else if n % 2 = 1 then .neg e else .neg (.neg e)

/-! ## Expressions -/

mutual

/-- The expression of a level at the head of a text. -/
def level? : Nat → Level → Text → Reading Expr
  | 0, _, _ => none
  | fuel + 1, l, s =>
    match operand? fuel l s with
    | some (left, rest) => extend? fuel l left rest
    | none => none

/-- The expression of a level that starts with `left`. -/
def extend? : Nat → Level → Expr → Text → Reading Expr
  | 0, _, _, _ => none
  | fuel + 1, l, left, s =>
    match l.operator? (skip s) with
    | none => some (left, skip s)
    | some (join, t) =>
      match operand? fuel l t with
      | some (right, rest) => extend? fuel l (join left right) rest
      | none => none

/-- An operand of a level. -/
def operand? : Nat → Level → Text → Reading Expr
  | 0, _, _ => none
  | fuel + 1, l, s =>
    match l with
    | .product =>
      let (n, t) := signs s
      (level? fuel .union t).map fun p => (withSigns n p.1, p.2)
    | .union => path? fuel (skip s)
    | l =>
      match l.closer? with
      | some closer => level? fuel closer s
      | none => none

/-- A path, or an expression that a path may follow. -/
def path? : Nat → Text → Reading Expr
  | 0, _ => none
  | fuel + 1, s =>
    if startsPrimary s then
      match primary? fuel s with
      | none => none
      | some (e, rest) =>
        match conditions? fuel e (skip rest) with
        | none => none
        | some (e, rest) =>
          match rest with
          | '/' :: '/' :: t => steps? fuel (everyNode e) t
          | '/' :: t => steps? fuel e t
          | _ => some (e, rest)
    else
      match s with
      | '/' :: _ => absolute? fuel .root s
      | _ => steps? fuel .here s

/-- A path from the document; a single slash may stand alone. -/
def absolute? : Nat → Expr → Text → Reading Expr
  | 0, _, _ => none
  | fuel + 1, e, s =>
    match s with
    | '/' :: '/' :: t =>
      match steps? fuel (everyNode e) t with
      | some (e, rest) => absolute? fuel e rest
      | none => none
    | '/' :: t =>
      match skip t with
      | [] => some (e, [])
      | c :: u =>
        if isNameStart c || c == '.' || c == '@' || c == '*' then
          match steps? fuel e (c :: u) with
          | some (e, rest) => absolute? fuel e rest
          | none => none
        else absolute? fuel e (c :: u)
    | _ => some (e, s)

/-- Steps joined with slashes. -/
def steps? : Nat → Expr → Text → Reading Expr
  | 0, _, _ => none
  | fuel + 1, e, s =>
    match step? fuel e (skip s) with
    | none => none
    | some (e, rest) =>
      match skip rest with
      | '/' :: '/' :: t => steps? fuel (everyNode e) t
      | '/' :: t => steps? fuel e t
      | rest => some (e, rest)

def step? : Nat → Expr → Text → Reading Expr
  | 0, _, _ => none
  | fuel + 1, e, s =>
    match s with
    | '.' :: '.' :: t => some (.step e .parent .node [], t)
    | '.' :: t => some (e, t)
    | _ =>
      match axisTest? s with
      | none => none
      | some ((axis, test), t) =>
        (predicates? fuel (skip t)).map fun p => (.step e axis test p.1, p.2)

def predicates? : Nat → Text → Reading (List Expr)
  | 0, _ => none
  | fuel + 1, s =>
    match s with
    | '[' :: t =>
      match level? fuel .or t with
      | some (e, ']' :: rest) =>
        (predicates? fuel (skip rest)).map fun p => (e :: p.1, p.2)
      | _ => none
    | _ => some ([], s)

/-- Predicates on the whole of `e`. -/
def conditions? : Nat → Expr → Text → Reading Expr
  | 0, _, _ => none
  | fuel + 1, e, s =>
    match s with
    | '[' :: t =>
      match level? fuel .or t with
      | some (condition, ']' :: rest) => conditions? fuel (.filter e condition) (skip rest)
      | _ => none
    | _ => some (e, s)

def primary? : Nat → Text → Reading Expr
  | 0, _ => none
  | fuel + 1, s =>
    match s with
    | '(' :: t =>
      match level? fuel .or t with
      | some (e, ')' :: rest) => some (e, rest)
      | _ => none
    | c :: _ =>
      if c = '"' ∨ c = '\'' then (literal? s).map fun p => (.literal p.1, p.2)
      else if isNameStart c then
        match Xml.readBase? s with
        | some (name, t) =>
          match skip t with
          | '(' :: u =>
            match skip u with
            | ')' :: rest => some (.call name [], rest)
            | u => (arguments? fuel u).map fun p => (.call name p.1, p.2)
          | _ => none
        | none => none
      else (readUnsigned? s).map fun p => (.number p.1, p.2)
    | [] => none

/-- Arguments up to the closing parenthesis. -/
def arguments? : Nat → Text → Reading (List Expr)
  | 0, _ => none
  | fuel + 1, s =>
    match level? fuel .or s with
    | some (e, ')' :: rest) => some ([e], rest)
    | some (e, ',' :: rest) => (arguments? fuel rest).map fun p => (e :: p.1, p.2)
    | _ => none

end

/-- Between two characters that are read at most sixteen steps are nested. -/
def Expr.read? (s : Text) : Option Expr :=
  match level? (20 * s.length + 40) .or s with
  | some (e, rest) => if skip rest = [] then some e else none
  | none => none

end Crosswalk.XPath
