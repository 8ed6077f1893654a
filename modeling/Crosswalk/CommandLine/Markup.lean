import Crosswalk.Text.Blank
import Crosswalk.Text.Scan

/-!
# Console markup

A tag between brackets sets a style up to the tag that closes it: `[blue]ready[/blue]`, or `[/]`
for the last one. A tag starts with a small letter, a hash, a slash or an at sign; any other
bracket, and one behind a backslash, is text.

* `Markup.plain? s`: the text without its tags, unless a tag closes what is not open.
-/

namespace Crosswalk.Markup

open Text

/-- What stands at a place of a marked text. -/
inductive Mark where
  | opened (name : Text)
  | closed (name : Text)
  /-- Text that looks like a tag but is none. -/
  | literal (s : Text)
  deriving DecidableEq

def isTagStart (c : Char) : Bool :=
  ('a' ≤ c && c ≤ 'z') || c == '#' || c == '/' || c == '@'

/-- The inside of a tag at the head of a text. A tag holds no further opening bracket. -/
def tagInside? : Text → Option Text
  | '[' :: c :: s =>
    if isTagStart c then
      match cutChar? ']' s with
      | some (a, _) => if '[' ∈ a then none else some (c :: a)
      | none => none
    else none
  | _ => none

/-- The name of a tag, before its parameters. -/
def tagName (inside : Text) : Text :=
  match cutChar? '=' inside with
  | some (a, _) => a
  | none => inside

def markOf (inside : Text) : Mark :=
  match tagName inside with
  | '/' :: name => .closed ((trim name).map Char.toLower)
  | name => .opened ((trim name).map Char.toLower)

/-- A tag, with the backslashes before it. An odd one makes it text; two of them are one. -/
def markForm : Form (List Mark) := fun s =>
  let slashes := (s.takeWhile (· == '\\')).length
  match tagInside? (s.drop slashes) with
  | none => none
  | some inside =>
    let shown := Mark.literal (List.replicate (slashes / 2) '\\')
    let tag := '[' :: inside ++ [']']
    some ([shown, if slashes % 2 = 1 then .literal tag else markOf inside], slashes + tag.length)

def marksOf (s : Text) : List Mark :=
  (pieces markForm s).flatMap fun
    | .char c => [.literal [c]]
    | .found marks _ => marks

/-- The tags that stay open when the last one of a name is closed; without name, the last one. -/
def close? (name : Text) : List Text → Option (List Text)
  | [] => none
  | opened :: more =>
    if name = [] ∨ name = opened then some more else (close? name more).map (opened :: ·)

/-- The text of marks, where the tags `opened` are open, the last one first. -/
def plainFrom? : List Text → List Mark → Option Text
  | _, [] => some []
  | opened, .literal s :: ms => (plainFrom? opened ms).map (s ++ ·)
  | opened, .opened name :: ms => plainFrom? (name :: opened) ms
  | opened, .closed name :: ms => (close? name opened).bind fun rest => plainFrom? rest ms

def plain? (s : Text) : Option Text := (plainFrom? [] (marksOf s)).map (replaceAll "\\[" "[")

example : plain? "[red]a[0] [@n][/red]" = some ("a[0] " : Text) := by decide

example : plain? "x[/b]" = none := by decide

end Crosswalk.Markup
