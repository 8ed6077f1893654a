import Crosswalk.Query.XPath.Axes

/-!
# Functions of XPath

A function gives nothing when it is called with the wrong number of arguments, or with another
result where a set of nodes is due.
-/

namespace Crosswalk.XPath

open Text

/-- What an expression is evaluated in. -/
structure Context where
  tree : Xml.Tree
  /-- Namespaces by their short name. -/
  spaces : Xml.Spaces
  node : Nat
  /-- The position of the node among those that a predicate is asked for, and their count. -/
  position : Nat
  size : Nat

abbrev Function := Context → List Result → Option Result

namespace Context

def text (c : Context) (r : Result) : Text := r.toText c.tree

def number (c : Context) (r : Result) : Binary64 := r.toNumber c.tree

def place? (c : Context) : Option Xml.Place := placeAt c.tree c.node

def content (c : Context) : Text := contentAt c.tree c.node

end Context

/-! ## Forms of functions -/

def constant (f : Context → Result) : Function
  | c, [] => some (f c)
  | _, _ => none

def onResult (f : Context → Result → Result) : Function
  | c, [r] => some (f c r)
  | _, _ => none

def onTexts (f : Text → Text → Result) : Function
  | c, [r, s] => some (f (c.text r) (c.text s))
  | _, _ => none

/-- Without an argument, the characters of the node. -/
def onTextOrNode (f : Text → Result) : Function
  | c, [] => some (f c.content)
  | c, [r] => some (f (c.text r))
  | _, _ => none

def onNumber (f : Binary64 → Binary64) : Function := onResult fun c r => .number (f (c.number r))

def onNodes (f : Context → List Nat → Result) : Function
  | c, [.nodes places] => some (f c places)
  | _, _ => none

/-- A name of the first node, or of the node itself. -/
def onName (f : Xml.Place → Text) : Function
  | c, [] => some (.text ((c.place?.map f).getD []))
  | c, [.nodes places] =>
    some (.text (((places.head?.bind (placeAt c.tree)).map f).getD []))
  | _, _ => none

/-! ## Names -/

def localName (p : Xml.Place) : Text :=
  match p.site with
  | .node (.instruction target _) => target
  | _ => (p.name?.map (·.base)).getD []

def fullName (p : Xml.Place) : Text :=
  match p.site with
  | .node (.instruction target _) => target
  | _ => (p.name?.map Xml.QName.written).getD []

def namespaceOf (p : Xml.Place) : Text := (p.name?.map (·.uri)).getD []

/-! ## Texts -/

def concat : Function
  | c, r :: s :: more => some (.text ((r :: s :: more).flatMap c.text))
  | _, _ => none

/-- The whole number nearest to a number, the greater one of two; what is near zero is zero. -/
def round (x : Binary64) : Binary64 :=
  if (Binary64.ofRatio true 1 2).le x && x.lt (Binary64.ofRatio false 1 2) then x.mul .zero
  else
    match x with
    | .finite .. =>
      let low := x.floor
      if (Binary64.ofRatio false 1 2).le (x.sub low) then low.add (.ofInt 1) else low
    | x => x

/-- The whole number nearest to a bound of a range. -/
def bound (x : Binary64) : Binary64 :=
  match x with
  | .finite .. =>
    let low := x.floor
    if (Binary64.ofRatio false 1 2).le (x.sub low) then low.add (.ofInt 1) else low
  | x => x

/-- The characters at the positions that a condition holds for, counted from one. -/
def charactersAt (p : Binary64 → Bool) (s : Text) : Text :=
  ((s.zip (List.range s.length)).filter fun q => p (.ofInt (q.2 + 1))).map (·.1)

def substring : Function
  | c, [r, a] => some (.text (charactersAt (fun i => (bound (c.number a)).le i) (c.text r)))
  | c, [r, a, b] =>
    let start := bound (c.number a)
    let stop := start.add (bound (c.number b))
    some (.text (charactersAt (fun i => start.le i && i.lt stop) (c.text r)))
  | _, _ => none

/-- The words of a text between its blanks. -/
def blankWords (s : Text) : List Text := (cutsAt isBlank s).filter fun w => w != []

def normalize (s : Text) : Text := joinWith [' '] (blankWords s)

/-- Each character of `old` replaced by the one at its place in `new`, or left out. -/
def translateChar (old new : Text) (c : Char) : Text :=
  match old.idxOf? c with
  | some i => (new[i]?).toList
  | none => [c]

def translate : Function
  | c, [r, old, new] =>
    some (.text ((c.text r).flatMap (translateChar (c.text old) (c.text new))))
  | _, _ => none

def substringBefore (s mark : Text) : Text := ((cut? mark s).map (·.1)).getD []

def substringAfter (s mark : Text) : Text := ((cut? mark s).map (·.2)).getD []

/-! ## Nodes -/

/-- The value of an attribute of the namespace `xml` at a place. -/
def xmlAttribute? (base : Text) (p : Xml.Place) : Option Text :=
  p.node?.bind fun n =>
    (n.attributes.find? fun a => a.name.uri == Xml.xmlSpace && a.name.base == base).map (·.value)

/-- The language that holds at a place. -/
def languageAt? (t : Xml.Tree) (i : Nat) : Option Text :=
  (Axis.ancestorOrSelf.places t i).findSome? fun j =>
    (placeAt t j).bind (xmlAttribute? "lang")

/-- Whether a language is another one or a part of it. -/
def isLanguage (asked found : Text) : Bool :=
  match after? (asked.map Char.toUpper) (found.map Char.toUpper) with
  | some [] => true
  | some ('-' :: _) => true
  | _ => false

def language : Function := onResult fun c r =>
  .bool ((languageAt? c.tree c.node).any (isLanguage (c.text r)))

/-- The elements with one of the identifiers. -/
def withIds (t : Xml.Tree) (ids : List Text) : List Nat :=
  select t fun p => (xmlAttribute? "id" p).any fun id => ids.elem id

def byId : Function
  | c, [.nodes places] =>
    some (.nodes (withIds c.tree (places.flatMap fun i => blankWords (contentAt c.tree i))))
  | c, [r] => some (.nodes (withIds c.tree (blankWords (c.text r))))
  | _, _ => none

def sum (c : Context) (places : List Nat) : Binary64 :=
  places.foldl (fun x i => x.add (readNumber (contentAt c.tree i))) .zero

/-! ## The table -/

def functions : List (Text × Function) := [
  ("boolean", onResult fun _ r => .bool r.toBool),
  ("ceiling", onNumber Binary64.ceil),
  ("concat", concat),
  ("contains", onTexts fun s t => .bool (contains t s)),
  ("count", onNodes fun _ places => .number (.ofInt places.length)),
  ("false", constant fun _ => .bool false),
  ("floor", onNumber Binary64.floor),
  ("id", byId),
  ("lang", language),
  ("last", constant fun c => .number (.ofInt c.size)),
  ("local-name", onName localName),
  ("name", onName fullName),
  ("namespace-uri", onName namespaceOf),
  ("normalize-space", onTextOrNode fun s => .text (normalize s)),
  ("not", onResult fun _ r => .bool (!r.toBool)),
  ("number", fun c arguments =>
    match arguments with
    | [] => some (.number (readNumber c.content))
    | [r] => some (.number (c.number r))
    | _ => none),
  ("position", constant fun c => .number (.ofInt c.position)),
  ("round", onNumber round),
  ("starts-with", onTexts fun s t => .bool (startsWith t s)),
  ("string", onTextOrNode .text),
  ("string-length", onTextOrNode fun s => .number (.ofInt s.length)),
  ("substring", substring),
  ("substring-after", onTexts fun s t => .text (substringAfter s t)),
  ("substring-before", onTexts fun s t => .text (substringBefore s t)),
  ("sum", onNodes fun c places => .number (sum c places)),
  ("translate", translate),
  ("true", constant fun _ => .bool true)]

end Crosswalk.XPath
