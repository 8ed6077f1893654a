import Crosswalk.Text.Basic
import Crosswalk.Text.Word

/-!
# Escaped texts

* `escapeMarkup s`: `s` written as content of a html element or attribute.
* `percentEncode s`: `s` written as one part of a url: each other octet of its UTF-8 form is a
  percent sign and two digits.
-/

namespace Crosswalk.Text

def escapeMarkup (s : Text) : Text :=
  s.flatMap fun c =>
    if c = '&' then "&amp;"
    else if c = '<' then "&lt;"
    else if c = '>' then "&gt;"
    else if c = '"' then "&quot;"
    else [c]

def hexDigit (n : Nat) : Char := (Nat.digitChar n).toUpper

def percentOctet (b : UInt8) : Text := ['%', hexDigit (b.toNat / 16), hexDigit (b.toNat % 16)]

/-- The characters of a url part that stand for themselves. -/
def isUnreserved (c : Char) : Bool := isAsciiWord c || c == '-' || c == '.' || c == '~'

def percentEncode (s : Text) : Text :=
  s.flatMap fun c => if isUnreserved c then [c] else (String.utf8EncodeChar c).flatMap percentOctet

example : percentEncode "é b" = "%C3%A9%20b" := by decide

end Crosswalk.Text
