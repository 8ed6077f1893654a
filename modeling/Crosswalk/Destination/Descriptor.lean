import Crosswalk.Destination.Datatypes
import Crosswalk.Destination.Field

/-!
# Descriptors

A descriptor is a field, then at most three options in any order, then a pattern:
`dcterms:title @fra ^^literal;uri §private ~ pattern`.

* `splitPattern`: the text before the first `~` outside quotes, and the pattern after it.
* `splitOptions?`: the field and the options.
* `Resolver.resolve`: the destination that a descriptor names.
* `Resolver.resolveAll`: the destinations of several fields joined with `|`.
* `Destination.write`: a destination as a descriptor.
-/

namespace Crosswalk

open Text

inductive Visibility where
  | open
  | hidden
  deriving DecidableEq

def Visibility.text : Visibility → Text
  | .open => "public"
  | .hidden => "private"

def Visibility.ofText? (s : Text) : Option Visibility :=
  if s = "public" then some .open else if s = "private" then some .hidden else none

structure Destination where
  field : Text
  propertyId : Option Identifier
  datatypes : List Text
  language : Option Text
  visibility : Option Visibility
  /-- The descriptor as it is written. -/
  written : Option Text
  deriving DecidableEq

structure Descriptor where
  destination : Destination
  pattern : Option Text
  deriving DecidableEq

/-- A field that no property of the vocabularies matches. -/
structure UnknownField where
  field : Text
  deriving DecidableEq

def UnknownField.message (e : UnknownField) : Text :=
  "The field \"" ++ e.field ++ "\" matches no known property."

/-! ## Grammar -/

def splitPattern (s : Text) : Text × Option Text :=
  match cutOutside? '~' s with
  | some (head, pattern) => (head, some (trim pattern))
  | none => (s, none)

inductive OptionMark where
  | datatype
  | language
  | visibility
  deriving DecidableEq

def OptionMark.text : OptionMark → Text
  | .datatype => "^^"
  | .language => "@"
  | .visibility => "§"

/-- A text cut at the marks: what stands before the first one, and what follows each. -/
abbrev Cut := Text × List (OptionMark × Text)

def Cut.cons (c : Char) (cut : Cut) : Cut := (c :: cut.1, cut.2)

def Cut.mark (m : OptionMark) (cut : Cut) : Cut := ([], (m, cut.1) :: cut.2)

/-- A text cut at its marks, when `opened` is open. Quotes count only after the first mark; a
single `^` spoils the text. -/
def cutMarks? (opened : Option Char) (inOption : Bool) : Text → Option Cut
  | [] => some ([], [])
  | c :: s =>
    if opened.isSome then (cutMarks? (Quote.step opened c) inOption s).map (Cut.cons c)
    else if isQuoteMark c && inOption then (cutMarks? (some c) true s).map (Cut.cons c)
    else if c = '@' then (cutMarks? none true s).map (Cut.mark .language)
    else if c = '§' then (cutMarks? none true s).map (Cut.mark .visibility)
    else if c = '^' then
      match s with
      | '^' :: t => (cutMarks? none true t).map (Cut.mark .datatype)
      | _ => none
    else (cutMarks? none inOption s).map (Cut.cons c)

def splitOptions? (head : Text) : Option Cut :=
  (cutMarks? none false head).map fun cut =>
    (trim cut.1, cut.2.map fun p => (p.1, trim p.2))

/-- A field starts with a letter and has none of the marks. -/
def isField : Text → Bool
  | [] => false
  | c :: s =>
    isAsciiLetter c &&
      s.all fun d => d != '@' && d != '§' && d != '^' && d != '~' && d != '|'

/-- A language tag has subtags of letters and digits, joined by hyphens, the last one of letters
alone. -/
def isLanguage (s : Text) : Bool :=
  let subtags := cutsAt (· == '-') s
  subtags.all (fun t => t != [] && t.all fun c => isAsciiLetter c || isAsciiDigit c) &&
    (subtags.getLast?.any fun t => t.all isAsciiLetter)

structure Options where
  language : Option Text
  datatypes : List Text
  visibility : Option Visibility

def Options.none : Options := ⟨Option.none, [], Option.none⟩

def nonBlank (s : Text) : Option Text := if s = [] then none else some s

/-- The options after one more. A later option replaces an earlier one of its kind. -/
def Options.add? (o : Options) : OptionMark × Text → Option Options
  | (.language, s) =>
    if s = [] ∨ isLanguage s then some { o with language := nonBlank s } else Option.none
  | (.datatype, s) =>
    let tokens := ((cutsAt (· == ';') s).map trim).filter (· != [])
    if tokens.all isDatatypeToken then some { o with datatypes := tokens } else Option.none
  | (.visibility, s) =>
    if s = [] then some { o with visibility := Option.none }
    else (Visibility.ofText? s).map fun v => { o with visibility := some v }

def Options.read? (options : List (OptionMark × Text)) : Option Options :=
  options.foldlM Options.add? Options.none

def maxOptions : Nat := 3

/-! ## Resolution -/

structure Resolver where
  register : Register
  checkField : Bool
  overrides : Pairs Text Text

namespace Resolver

def datatypes (r : Resolver) : Datatypes := .ofRegister r.register

def matcher (r : Resolver) : FieldMatcher := ⟨r.register, r.overrides, true⟩

/-- Without checking, every field stands for itself. -/
def resolveField (r : Resolver) (field : Text) : Except UnknownField Text :=
  if r.checkField then
    match r.matcher.match? field with
    | some term => .ok term
    | none => .error ⟨field⟩
  else .ok field

def build (r : Resolver) (field : Text) (datatypes : List Text) (language : Option Text)
    (visibility : Option Visibility) (written : Option Text) :
    Except UnknownField Destination :=
  (r.resolveField (cleanName field)).map fun term =>
    { field := term
      propertyId := r.register.propertyId (FieldMatcher.canonicalTerm term)
      datatypes := r.datatypes.canonicalize datatypes
      language := language.bind nonBlank
      visibility := visibility
      written := written }

/-- The field and the options of a descriptor without its pattern. -/
def readHead? (head : Text) : Option (Text × Options) :=
  (splitOptions? (collapse head)).bind fun cut =>
    if isField cut.1 && cut.2.length ≤ maxOptions then
      (Options.read? cut.2).map fun options => (cut.1, options)
    else none

/-- Nothing when the text is no descriptor. -/
def resolve (r : Resolver) (text : Text) : Except UnknownField (Option Descriptor) :=
  let s := trim text
  let (head, pattern) := splitPattern s
  match readHead? head with
  | none => .ok none
  | some (field, o) =>
    (r.build field o.datatypes o.language o.visibility (some s)).map fun destination =>
      some ⟨destination, pattern.bind nonBlank⟩

/-- The descriptors of a text that names several fields, when it has no pattern. -/
def fanOut (text : Text) : List Text :=
  let (head, pattern) := splitPattern text
  if pattern.isSome || '|' ∉ head then [text]
  else ((cutsAt (· == '|') head).map trim).filter (· != [])

/-- What each part resolves to; the parts that are no descriptors are left out. -/
def resolveAll (r : Resolver) (text : Text) : List (Except UnknownField Descriptor) :=
  (fanOut text).filterMap fun part =>
    match r.resolve part with
    | .ok none => none
    | .ok (some d) => some (.ok d)
    | .error e => some (.error e)

end Resolver

/-! ## Writing -/

/-- A destination with a pattern as a descriptor. -/
def Destination.write (d : Destination) (pattern : Text) : Text :=
  d.field ++ d.datatypes.flatMap (fun t => (" ^^" : Text) ++ t) ++
    (match d.language with | some l => (" @" : Text) ++ l | none => []) ++
    (match d.visibility with | some v => (" §" : Text) ++ v.text | none => []) ++
    (if pattern = [] then [] else (" ~ " : Text) ++ pattern)

end Crosswalk
