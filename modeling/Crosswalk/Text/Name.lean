import Crosswalk.Text.Blank

/-!
# Names of fields

A field name as a person writes it: its blanks are collapsed and none stands beside a colon, so
`Dublin  Core : Title` is `Dublin Core:Title`.
-/

namespace Crosswalk.Text

def cleanName (s : Text) : Text :=
  joinWith [':'] ((cutsAt (· == ':') (collapse s)).map trim)

example : cleanName " Dublin  Core : Title" = "Dublin Core:Title" := by decide

end Crosswalk.Text
