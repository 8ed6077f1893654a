import Crosswalk.Number.Reading
import Crosswalk.Text.Blank

/-!
# Data of a filter chain

What a filter takes and gives: a text or a list of texts. Most filters read one text, which is the
first one of a list.
-/

namespace Crosswalk

inductive Datum where
  | text (s : Text)
  | list (items : List Text)
  deriving DecidableEq

namespace Datum

/-- The text, or the first one of the list. -/
def first : Datum → Text
  | .text s => s
  | .list items => items.headD []

end Datum

open Text

/-- Whether a text is a number, once trimmed. -/
def isNumeric (s : Text) : Bool := (readFloat? (trim s)).isSome

end Crosswalk
