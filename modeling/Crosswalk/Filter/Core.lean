import Crosswalk.Filter.Arguments
import Crosswalk.Host
import Crosswalk.Number.Format
import Crosswalk.Text.Cut
import Crosswalk.Text.Escape

/-!
# Core filters

A filter takes a datum and arguments. When it has no output for them the datum stays as it is
(`Halt.keep`); a text that gives no number where one is due, or a number beyond all measure, ends
the conversion (`Halt.notWhole`).
-/

namespace Crosswalk

/-- Why there is no number that a filter can take. -/
inductive Filter.NotWhole where
  /-- It is a number that is not written in digits alone. -/
  | numeral (text : Text)
  /-- It is a number between separators, which end no number. -/
  | separated (text : Text)
  /-- It has so many digits, which are too many for a whole number. -/
  | digits (count : Nat)
  /-- It is a limit beyond the length of every list. -/
  | limit
  /-- It asks for so many characters, which there is no memory for. -/
  | memory (count : Nat)
  deriving DecidableEq

/-- Why a filter gives no output. -/
inductive Filter.Halt where
  | keep
  | notWhole (why : NotWhole)
  deriving DecidableEq

abbrev Filter := Datum → Filter.Arguments → Except Filter.Halt Datum

namespace Filter

open Text

/-- A filter from texts to texts, without arguments. -/
def ofText (f : Text → Text) : Filter := fun v _ => .ok (.text (f v.first))

/-- The number at the head of a text, unless it has too many digits. -/
def wholeOf (s : Text) : Except Halt Int :=
  if leadingCount s ≤ maxDigits then .ok (leadingInt s)
  else .error (.notWhole (.digits (leadingCount s)))

/-! ## Case and ends -/

/-- The first character in upper case, or its several letters. -/
def capitalize (s : Text) : Text := upper (s.take 1) ++ s.drop 1

/-- The first character of each word in upper case; `blank` tells that a blank stands before. -/
def titleFrom (blank : Bool) : Text → Text
  | [] => []
  | c :: s =>
    if isBlank c then c :: titleFrom true s
    else (if blank then upperOf c else [c]) ++ titleFrom false s

def title (s : Text) : Text := titleFrom true s

/-- What is trimmed when no characters are given. -/
def trimmed : Text := " \t\n\r\x00\x0b"

def trimFilter : Filter := fun v a =>
  let characters := match a.at? 0 with | some (c :: s) => c :: s | _ => trimmed
  let isOne := fun c => characters.elem c
  let side := (a.at? 1).getD []
  .ok (.text (
    if side = "left" then trimStartOf isOne v.first
    else if side = "right" then trimEndOf isOne v.first
    else trimOf isOne v.first))

/-! ## Parts -/

def firstFilter : Filter := fun v _ =>
  .ok (.text (match v with | .list _ => v.first | .text s => s.take 1))

def lastFilter : Filter := fun v _ =>
  .ok (.text (match v with
    | .list items => items.getLastD []
    | .text s => s.drop (s.length - 1)))

def lengthFilter : Filter := fun v _ =>
  .ok (.text (natText (match v with | .list items => items.length | .text s => s.length)))

def sliceDatum (start size : Int) : Datum → Datum
  | .list items => .list (sublist start size items)
  | .text s => .text (substr start (some size) s)

def slice : Filter := fun v a => do
  let start ← (a.at? 0).elim (.ok 0) wholeOf
  let size ← (a.at? 1).elim (.ok 1) wholeOf
  pure (sliceDatum start size v)

/-- Parts of `size` characters, counting down through `room` in the first one. -/
def chunksFrom (size : Nat) : Nat → Text → List Text
  | _, [] => [[]]
  | 0, c :: s =>
    match chunksFrom size (size - 1) s with
    | [] => [[], [c]]
    | part :: parts => [] :: (c :: part) :: parts
  | room + 1, c :: s =>
    match chunksFrom size room s with
    | [] => [[c]]
    | part :: parts => (c :: part) :: parts

/-- Parts of `size` characters, the last one shorter or equal. -/
def chunks (size : Nat) (s : Text) : List Text := chunksFrom size size s

/-- The parts between the delimiters; a positive limit is the count of parts, a negative one
leaves out so many at the end. Without a delimiter the parts have the size of the limit. -/
def splitText (delimiter : Text) (limit : Option Int) (s : Text) : List Text :=
  if delimiter = [] then
    chunks (match limit with | some n => if 0 < n then n.toNat else 1 | none => 1) s
  else
    match limit with
    | none => splitAll delimiter s
    | some n =>
      if 0 < n then Text.split (n.toNat - 1) delimiter s
      else if n < 0 then upTo n (splitAll delimiter s)
      else [s]

/-- The greatest limit of a split. -/
def maxLimit : Int := powerOfTwo 63

def splitFilter : Filter := fun v a => do
  let delimiter := (a.at? 0).getD []
  let limit ← (a.at? 1).elim (.ok none) fun s => (wholeOf s).map some
  if delimiter ≠ [] ∧ limit.any (maxLimit < ·) then .error (.notWhole .limit)
  else pure (.list (splitText delimiter limit v.first))

/-! ## Joining and replacing -/

def implode : Filter := fun _ a =>
  .ok (.text (match a.asList with
    | [] => []
    | mark :: parts => joinWith mark parts))

/-- Joins the parts that are not empty. -/
def implodeValues : Filter := fun _ a =>
  .ok (.text (match a.asList with
    | [] => []
    | mark :: parts => joinWith mark (parts.filter (· != []))))

def replaceFilter : Filter := fun v a =>
  .ok (.text (a.asPairs.foldl
    (fun s p => if p.1 = [] then s else replaceAll p.1 p.2 s) v.first))

def commentOpen : Text := ['<', '!', '-', '-']

def commentClose : Text := ['-', '-', '>']

/-- The length of a comment or a tag at the head of a text. -/
def tagLength? (s : Text) : Option Nat :=
  match (after? commentOpen s).bind (find? commentClose) with
  | some n => some (n + 7)
  | none =>
    match s with
    | '<' :: t => (cutChar? '>' t).map fun p => p.1.length + 2
    | _ => none

def stripTags (s : Text) : Text := erase (fun t => (tagLength? t).map fun n => ((), n)) s

/-! ## Tables -/

/-- The label of a code, read without regard to case when not strict and no code is equal. -/
def labelOf (strict : Bool) (terms : Pairs Text Text) (w : Text) : Text :=
  match Pairs.get? w terms with
  | some label => label
  | none =>
    if strict then w
    else ((terms.find? fun p => lower p.1 == lower w).map (·.2)).getD w

/-- The first code whose label is `w`. -/
def codeOf (strict : Bool) (terms : Pairs Text Text) (w : Text) : Text :=
  ((terms.find? fun p => p.2 == w || (!strict && lower p.2 == lower w)).map (·.1)).getD w

def isStrict (flag : Option Text) : Bool :=
  match flag with
  | none => false
  | some s => s ≠ [] ∧ s ≠ ['0'] ∧ s ≠ "false"

def namedTable [Host] (v : Datum) (a : Arguments) : Text :=
  let w := v.first
  let name := (a.at? 0).getD []
  match Pairs.get? name a.scope.tables with
  | none =>
    match Host.isoName? name w with
    | some (c :: s) => c :: s
    | _ => w
  | some terms =>
    if a.at? 1 = some "code" then codeOf (isStrict (a.at? 2)) terms w
    else labelOf (isStrict (a.at? 2)) terms w

/-- A table by its name, or written between braces. -/
def table [Host] : Filter := fun v a =>
  let text := trim a.text
  .ok (.text (
    match text with
    | '{' :: inside =>
      let inner : Arguments := { a with text := trim inside.dropLast }
      (Pairs.get? v.first inner.asPairs).getD v.first
    | _ => namedTable v a))

/-! ## Numbers and dates -/

/-- Why a number without point and exponent is not read as a whole one. -/
def whyNotWhole (w : Text) : NotWhole :=
  let s := (dropUnderscores false (trimNumeral w)).getD []
  let count := (readDigits (readSign s).2).1.length
  if maxDigits < count then .digits count else .numeral w

/-- A number with a point or an exponent is read as a binary one, any other as a whole one. -/
def absolute : Filter := fun v _ =>
  let w := v.first
  if !isNumeric w then .ok (.text w)
  else if '.' ∈ w ∨ 'e' ∈ lower w then
    match readFloat? w with
    | some x => .ok (.text x.abs.plainText)
    | none => .error (.notWhole (.separated w))
  else
    match readInt? w with
    | some n => .ok (.text (natText n.natAbs))
    | none => .error (.notWhole (whyNotWhole w))

/-- Without a format, the seconds since 1970. -/
def date [Host] : Filter := fun v a =>
  match Host.moment? v.first with
  | none => .error .keep
  | some m =>
    match a.at? 0 with
    | none | some [] => .ok (.text (intText m.seconds))
    | some form => .ok (.text (m.format form))

/-- A percent sign, alone or with a conversion. `none` stands for the sign itself. -/
def conversionForm : Form (Option (Option Conversion))
  | '%' :: '%' :: _ => some (none, 2)
  | '%' :: s =>
    (Conversion.read? s).map fun c =>
      (some (if Conversion.isPlain s then some c else none), Conversion.readLength s + 1)
  | _ => none

/-- The number that an argument stands for, zero when it is none. -/
def numberOf? (argument : Text) : Option Binary64 :=
  if isNumeric argument then readFloat? argument else some .zero

/-- What a conversion writes for an argument, when it is fit for that. -/
def operand? (c : Conversion) (argument : Text) : Option Conversion.Operand :=
  if c.letter = 's' then some (.text argument)
  else
    (numberOf? argument).bind fun number =>
      if c.letter ∈ "fFeEgG".toList then some (.float number)
      else
        number.truncate?.bind fun n =>
          if c.letter = 'c' then
            if 0 ≤ n ∧ n < 0x110000 then some (.character (ofCode n.toNat)) else none
          else some (.int n)

/-- An argument written as a conversion says. -/
def convertArgument [Host] (c : Conversion) (argument : Text) : Except Halt Text :=
  match operand? c argument with
  | none => .error .keep
  | some operand =>
    if Host.holds c.size then .ok (c.write operand) else .error (.notWhole (.memory c.size))

/-- The text with its conversions filled from the arguments in order. -/
def fillConversions [Host] :
    List Text → List (Piece (Option (Option Conversion))) → Except Halt Text
  | _, [] => .ok []
  | arguments, .char c :: ps => (fillConversions arguments ps).map (c :: ·)
  | arguments, .found none _ :: ps => (fillConversions arguments ps).map ('%' :: ·)
  | argument :: arguments, .found (some (some c)) _ :: ps =>
    (convertArgument c argument).bind fun s => (fillConversions arguments ps).map (s ++ ·)
  | _, .found _ _ :: _ => .error .keep

def formatFilter [Host] : Filter := fun v a =>
  match a.asList with
  | [] => .ok (.text v.first)
  | arguments => (fillConversions arguments (pieces conversionForm v.first)).map .text

/-! ## The core filters by name -/

def coreFilters [Host] : List (Text × Filter) := [
  ("abs", absolute),
  ("capitalize", ofText capitalize),
  ("date", date),
  ("e", ofText escapeMarkup),
  ("escape", ofText escapeMarkup),
  ("first", firstFilter),
  ("format", formatFilter),
  ("implode", implode),
  ("implodev", implodeValues),
  ("last", lastFilter),
  ("length", lengthFilter),
  ("lower", ofText lower),
  ("replace", replaceFilter),
  ("slice", slice),
  ("split", splitFilter),
  ("striptags", ofText stripTags),
  ("table", table),
  ("title", ofText title),
  ("trim", trimFilter),
  ("upper", ofText upper),
  ("url_encode", ofText percentEncode)]

end Filter
end Crosswalk
