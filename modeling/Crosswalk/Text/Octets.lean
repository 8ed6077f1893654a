import Crosswalk.Text.Basic

/-!
# Octets of texts

* `octets s`: the UTF-8 form of a text, character by character.
* `hexOctet b`: the two digits of an octet in base sixteen.
-/

namespace Crosswalk.Text

def octets (s : Text) : List UInt8 := s.flatMap String.utf8EncodeChar

def hexOctet (b : UInt8) : Text := [Nat.digitChar (b.toNat / 16), Nat.digitChar (b.toNat % 16)]

def hexOctets (bs : List UInt8) : Text := bs.flatMap hexOctet

theorem octets_append (s t : Text) : octets (s ++ t) = octets s ++ octets t := by
  simp [octets]

theorem length_hexOctets (bs : List UInt8) : (hexOctets bs).length = 2 * bs.length := by
  induction bs with
  | nil => rfl
  | cons b bs ih =>
    rw [hexOctets, List.flatMap_cons, List.length_append, ← hexOctets, ih]
    simp only [hexOctet, List.length_cons, List.length_nil]
    omega

example : hexOctets (octets "é") = "c3a9" := by decide

end Crosswalk.Text
