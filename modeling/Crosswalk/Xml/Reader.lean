import Crosswalk.Text.Blank
import Crosswalk.Text.Digit
import Crosswalk.Text.Word
import Crosswalk.Json.Reader
import Crosswalk.Xml.Node

/-!
# Reading xml

`Xml.read? keep s` reads a document; comments are left out unless `keep` holds, and the texts
around a comment that is left out are one text. A document is refused when a tag is not closed in
order, a name is not declared, or a reference is to an entity other than the five common ones.
-/

namespace Crosswalk.Xml

open Text

/-! ## Characters -/

def isSpace (c : Char) : Bool := c == ' ' || c == '\t' || c == '\n' || c == '\r'

def skipSpace (s : Text) : Text := s.dropWhile isSpace

/-- Characters that a document may hold. -/
def isAllowed (c : Char) : Bool :=
  let n := c.toNat
  0x20 ≤ n && n != 0xFFFE && n != 0xFFFF || n == 0x09 || n == 0x0A || n == 0x0D

/-- Letters that names start with, beyond ASCII. -/
def nameStartRanges : List (Nat × Nat) := [
  (0xC0, 0xD6), (0xD8, 0xF6), (0xF8, 0x2FF), (0x370, 0x37D), (0x37F, 0x1FFF), (0x200C, 0x200D),
  (0x2070, 0x218F), (0x2C00, 0x2FEF), (0x3001, 0xD7FF), (0xF900, 0xFDCF), (0xFDF0, 0xFFFD),
  (0x10000, 0xEFFFF)]

def isNameStart (c : Char) : Bool :=
  isAsciiLetter c || c == '_' || inRanges nameStartRanges c.toNat

def isNamePart (c : Char) : Bool :=
  isNameStart c || c == '-' || c == '.' || isAsciiDigit c || c.toNat == 0xB7 ||
    inRanges [(0x300, 0x36F), (0x203F, 0x2040)] c.toNat

/-- A name without colon at the head of a text. -/
def readBase? (s : Text) : Option (Text × Text) :=
  match s with
  | c :: t =>
    if isNameStart c then some (c :: t.takeWhile isNamePart, t.dropWhile isNamePart) else none
  | [] => none

/-- A name with the short name of its namespace, which may be empty. -/
def readName? (s : Text) : Option ((Text × Text) × Text) :=
  match readBase? s with
  | none => none
  | some (a, ':' :: t) => (readBase? t).map fun p => ((a, p.1), p.2)
  | some (a, rest) => some (([], a), rest)

/-! ## References -/

def commonEntities : List (Text × Char) :=
  [("amp", '&'), ("lt", '<'), ("gt", '>'), ("quot", '"'), ("apos", '\'')]

def charOfCode? (n : Nat) : Option Char :=
  if n < 0x110000 ∧ ¬ (0xD800 ≤ n ∧ n < 0xE000) ∧ isAllowed (Char.ofNat n) then
    some (Char.ofNat n)
  else none

/-- Digits as a number of the given base. -/
def readCode? (base : Nat) (digits : Text) : Option Nat :=
  if digits = [] then none
  else
    digits.foldlM (fun n c => (Json.hexValue? c).bind fun d =>
      if d < base then some (min (n * base + d) 0x110000) else none) 0

/-- The character of a reference after its `&`, and the rest. -/
def readReference? (s : Text) : Option (Char × Text) :=
  match cutChar? ';' s with
  | none => none
  | some (name, rest) =>
    match name with
    | '#' :: 'x' :: digits => ((readCode? 16 digits).bind charOfCode?).map fun c => (c, rest)
    | '#' :: digits => ((readCode? 10 digits).bind charOfCode?).map fun c => (c, rest)
    | _ => (commonEntities.lookup name).map fun c => (c, rest)

/-! ## Tags -/

/-- The value of an attribute up to its quote mark. Space characters are blanks, unless a
reference stands for them. -/
def readValue? (quote : Char) : Nat → Text → Option (Text × Text)
  | 0, _ => none
  | _, [] => none
  | fuel + 1, c :: s =>
    if c = quote then some ([], s)
    else if c = '<' ∨ isAllowed c = false then none
    else if c = '&' then
      match readReference? s with
      | some (d, rest) => (readValue? quote fuel rest).map fun p => (d :: p.1, p.2)
      | none => none
    else (readValue? quote fuel s).map fun p => ((if isSpace c then ' ' else c) :: p.1, p.2)

/-- An attribute as it is written: its two names and its value. -/
abbrev Written := (Text × Text) × Text

def readAttribute? (s : Text) : Option (Written × Text) :=
  match readName? s with
  | none => none
  | some (name, t) =>
    match skipSpace t with
    | '=' :: u =>
      match skipSpace u with
      | q :: v =>
        if q = '"' ∨ q = '\'' then
          (readValue? q (v.length + 1) v).map fun p => ((name, p.1), p.2)
        else none
      | [] => none
    | _ => none

/-- The attributes of a tag, each after a space, and the rest of the tag. -/
def readAttributes? : Nat → Text → Option (List Written × Text)
  | 0, _ => none
  | fuel + 1, s =>
    let t := skipSpace s
    match t with
    | '>' :: _ => some ([], t)
    | '/' :: _ => some ([], t)
    | _ =>
      if t.length < s.length then
        match readAttribute? t with
        | some (a, u) => (readAttributes? fuel u).map fun p => (a :: p.1, p.2)
        | none => none
      else none

/-! ## Namespaces -/

def xmlSpace : Text := "http://www.w3.org/XML/1998/namespace"

/-- The namespaces that a tag declares. An empty one is a fault unless it is the default. -/
def declaredBy? : List Written → Option Spaces
  | [] => some []
  | ((short, base), value) :: more =>
    match declaredBy? more with
    | none => none
    | some spaces =>
      if short = [] ∧ base = "xmlns" then some (([], value) :: spaces)
      else if short = "xmlns" then if value = [] then none else some ((base, value) :: spaces)
      else some spaces

def isDeclaration (a : Written) : Bool :=
  (a.1.1 == [] && a.1.2 == ("xmlns" : Text)) || a.1.1 == ("xmlns" : Text)

def uriOf? (scope : Spaces) (short : Text) : Option Text :=
  if short = "xml" then some xmlSpace else Pairs.get? short scope

def elementName? (scope : Spaces) (name : Text × Text) : Option QName :=
  if name.1 = [] then some ⟨(Pairs.get? [] scope).getD [], [], name.2⟩
  else (uriOf? scope name.1).map fun uri => ⟨uri, name.1, name.2⟩

/-- The default namespace is none for attributes. -/
def attributeOf? (scope : Spaces) (a : Written) : Option Attribute :=
  if a.1.1 = [] then some ⟨⟨[], [], a.1.2⟩, a.2⟩
  else (uriOf? scope a.1.1).map fun uri => ⟨⟨uri, a.1.1, a.1.2⟩, a.2⟩

def allDistinct {α : Type} [BEq α] : List α → Bool
  | [] => true
  | x :: xs => !(xs.elem x) && allDistinct xs

/-- A tag read with the namespaces around it: its name, its attributes, what it declares and the
namespaces inside. -/
def resolveTag? (scope : Spaces) (name : Text × Text) (written : List Written) :
    Option (QName × List Attribute × Spaces × Spaces) := do
  if !allDistinct (written.map (·.1)) then none
  let declared ← declaredBy? written
  let inside := scope.merge declared
  let q ← elementName? inside name
  let attributes ← (written.filter fun a => !isDeclaration a).mapM (attributeOf? inside)
  if !allDistinct (attributes.map fun a => (a.name.uri, a.name.base)) then none
  some (q, attributes, declared, inside)

/-! ## Content -/

/-- The text of a comment after its opening, and the rest. -/
def readComment? (s : Text) : Option (Text × Text) :=
  match cut? ['-', '-'] s with
  | some (a, '>' :: rest) => if a.all isAllowed then some (a, rest) else none
  | _ => none

/-- The target and the data of an instruction after its opening, and the rest. -/
def readInstruction? (s : Text) : Option ((Text × Text) × Text) :=
  match readBase? s with
  | none => none
  | some (target, t) =>
    if target.map Char.toLower = "xml" then none
    else
      match cut? ['?', '>'] t with
      | none => none
      | some (data, rest) =>
        if data = [] ∨ data.head?.any isSpace then some ((target, skipSpace data), rest) else none

def cdataMark : Text := "<![CDATA["

def cdataClose : Text := "]]>"

/-- A run of characters up to the next tag. -/
def readChars? : Nat → Text → Option (Text × Text)
  | 0, _ => none
  | _, [] => some ([], [])
  | fuel + 1, c :: s =>
    if c = '<' then
      match after? cdataMark (c :: s) with
      | none => some ([], c :: s)
      | some t =>
        match cut? cdataClose t with
        | none => none
        | some (a, rest) =>
          if a.all isAllowed then (readChars? fuel rest).map fun p => (a ++ p.1, p.2) else none
    else if c = '&' then
      match readReference? s with
      | some (d, rest) => (readChars? fuel rest).map fun p => (d :: p.1, p.2)
      | none => none
    else if isAllowed c = false ∨ startsWith cdataClose (c :: s) then none
    else (readChars? fuel s).map fun p => (c :: p.1, p.2)

/-- Texts that follow one another are one text, and an empty text is none. -/
def joinTexts : List Node → List Node
  | [] => []
  | .text s :: ns =>
    match joinTexts ns with
    | .text t :: more => .text (s ++ t) :: more
    | more => if s = [] then more else .text s :: more
  | n :: ns => n :: joinTexts ns

def endTag? (name : Text × Text) (s : Text) : Option Text :=
  match readName? s with
  | some (n, t) =>
    if n = name then
      match skipSpace t with
      | '>' :: rest => some rest
      | _ => none
    else none
  | none => none

mutual

/-- The element after the `<` of its tag, and the rest. -/
def readElement? (keep : Bool) (scope : Spaces) : Nat → Text → Option (Node × Text)
  | 0, _ => none
  | fuel + 1, s =>
    match readName? s with
    | none => none
    | some (name, t) =>
      match readAttributes? (t.length + 1) t with
      | none => none
      | some (written, u) =>
        match resolveTag? scope name written with
        | none => none
        | some (q, attributes, declared, inside) =>
          match u with
          | '/' :: '>' :: rest => some (.element q attributes declared [], rest)
          | '>' :: v =>
            match readContent? keep inside fuel v with
            | none => none
            | some (children, w) =>
              (endTag? name w).map fun rest =>
                (.element q attributes declared (joinTexts children), rest)
          | _ => none

/-- The nodes up to the end tag around them, and what follows its opening. -/
def readContent? (keep : Bool) (scope : Spaces) : Nat → Text → Option (List Node × Text)
  | 0, _ => none
  | fuel + 1, s =>
    match readChars? (s.length + 1) s with
    | none => none
    | some (chars, t) =>
      let more := fun (ns : List Node) (rest : Text) =>
        (readContent? keep scope fuel rest).map fun p => (.text chars :: (ns ++ p.1), p.2)
      match t with
      | '<' :: '/' :: rest => some ([.text chars], rest)
      | '<' :: '!' :: '-' :: '-' :: u =>
        match readComment? u with
        | some (a, rest) => more (if keep then [.comment a] else []) rest
        | none => none
      | '<' :: '?' :: u =>
        match readInstruction? u with
        | some (p, rest) => more [.instruction p.1 p.2] rest
        | none => none
      | '<' :: u =>
        match readElement? keep scope fuel u with
        | some (n, rest) => more [n] rest
        | none => none
      | _ => none

end

/-! ## Documents -/

/-- The declaration before a document, with the encoding it names. The name of an instruction may
start like one. -/
def readDeclaration? (s : Text) : Option (Option Text × Text) :=
  match after? "<?xml" s with
  | none => some (none, s)
  | some t =>
    if t.head?.any isSpace then
      match cut? ['?', '>'] t with
      | none => none
      | some (inside, rest) =>
        match readAttributes? (inside.length + 1) (inside ++ ['>']) with
        | some (written, ['>']) =>
          if written.head?.any (fun a => a.1 == (([] : Text), ("version" : Text))) then
            some (written.lookup ([], ("encoding" : Text)), rest)
          else none
        | _ => none
    else some (none, s)

/-- The rest after a document type without its own entities. -/
def skipDoctype? (s : Text) : Option Text :=
  match after? "<!DOCTYPE" s with
  | none => some s
  | some t =>
    match cutChar? '>' t with
    | none => none
    | some (a, rest) =>
      if '[' ∈ a then (cut? "]>" t).map (·.2) else some rest

/-- The nodes outside of the root element: comments and instructions, and the rest. -/
def readMisc? (keep : Bool) : Nat → Text → Option (List Node × Text)
  | 0, _ => none
  | fuel + 1, s =>
    match skipSpace s with
    | '<' :: '!' :: '-' :: '-' :: t =>
      match readComment? t with
      | some (a, rest) =>
        (readMisc? keep fuel rest).map fun p => (if keep then .comment a :: p.1 else p.1, p.2)
      | none => none
    | '<' :: '?' :: t =>
      match readInstruction? t with
      | some (i, rest) => (readMisc? keep fuel rest).map fun p => (.instruction i.1 i.2 :: p.1, p.2)
      | none => none
    | t => some ([], t)

/-- Encodings that write the characters of a document as its text has them. -/
def isPlainEncoding (name : Text) : Bool :=
  let n := name.map Char.toLower
  n == ("utf-8" : Text) || n == ("utf8" : Text) || n == ("us-ascii" : Text) || n == ("ascii" : Text)

/-- Encodings of one octet for each of the first 256 characters. -/
def isOctetEncoding (name : Text) : Bool :=
  let n := name.map Char.toLower
  n == ("iso-8859-1" : Text) || n == ("latin1" : Text) || n == ("latin-1" : Text)

/-- Each octet of the UTF-8 form of a text as a character of its own. -/
def asOctets (s : Text) : Text :=
  s.flatMap fun c => (String.utf8EncodeChar c).map fun b => Char.ofNat b.toNat

def readNodes? (keep : Bool) (s : Text) : Option Document :=
  match readMisc? keep (s.length + 1) s with
  | none => none
  | some (before, t) =>
    match skipDoctype? t with
    | none => none
    | some u =>
      match readMisc? keep (u.length + 1) u with
      | some (between, '<' :: v) =>
        match readElement? keep [] (v.length + 1) v with
        | none => none
        | some (root, w) =>
          match readMisc? keep (w.length + 1) w with
          | some (after, []) => some ⟨before ++ between ++ root :: after⟩
          | _ => none
      | _ => none

def read? (keep : Bool) (s : Text) : Option Document :=
  let s := match s with | '\uFEFF' :: t => t | t => t
  match readDeclaration? (unifyLines s) with
  | none => none
  | some (none, rest) => readNodes? keep rest
  | some (some encoding, rest) =>
    if isPlainEncoding encoding then readNodes? keep rest
    else if isOctetEncoding encoding then readNodes? keep (asOctets rest)
    else none

end Crosswalk.Xml
