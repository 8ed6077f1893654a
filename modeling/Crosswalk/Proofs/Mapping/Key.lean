import Crosswalk.Mapping.Processor
import Crosswalk.Proofs.Json.Writer
import Crosswalk.Proofs.Mapping.Load
import Crosswalk.Proofs.Mapping.Written
import Crosswalk.Proofs.Text.Replace

/-!
# Keys of mappings

The key of a mapping is the digest of its text with its name and its directory right behind it.
Nothing stands between them, still no two mappings have one text (`keyText_injective`): what
follows the text starts with a mark that stands nowhere else in it, whatever the names hold.
-/

namespace Crosswalk

open Text Json

/-! ## Octets -/

theorem Text.octets_injective : Function.Injective octets := by
  intro s t h
  have hbytes : s.utf8Encode = t.utf8Encode := congrArg List.toByteArray h
  have hchars := congrArg ByteArray.utf8Decode? hbytes
  rw [List.utf8Decode?_utf8Encode, List.utf8Decode?_utf8Encode] at hchars
  exact List.toArray_inj (Option.some.inj hchars)

theorem digitChar_injective {m n : Nat} (hm : m < 16) (hn : n < 16)
    (h : Nat.digitChar m = Nat.digitChar n) : m = n := by
  have hvalue := congrArg hexValue? h
  rw [hexValue?_digitChar m hm, hexValue?_digitChar n hn] at hvalue
  exact Option.some.inj hvalue

theorem Text.hexOctets_cons (b : UInt8) (bs : List UInt8) : hexOctets (b :: bs) =
    Nat.digitChar (b.toNat / 16) :: Nat.digitChar (b.toNat % 16) :: hexOctets bs := rfl

theorem Text.hexOctets_injective : Function.Injective hexOctets := by
  intro bs
  induction bs with
  | nil =>
    intro cs h
    cases cs with
    | nil => rfl
    | cons c cs => cases h
  | cons b bs ih =>
    intro cs h
    cases cs with
    | nil => cases h
    | cons c cs =>
      have hb := b.toNat_lt
      have hc := c.toNat_lt
      rw [hexOctets_cons, hexOctets_cons, List.cons.injEq, List.cons.injEq] at h
      obtain ⟨hhigh, hlow, htail⟩ := h
      have hhigh := digitChar_injective (by omega) (by omega) hhigh
      have hlow := digitChar_injective (by omega) (by omega) hlow
      obtain rfl : b = c := UInt8.toNat_inj.1 (by omega)
      rw [ih htail]

/-! ## What follows the text -/

/-- The mark at the head of the options. -/
def optionsMark : Text := "\x7b\"c"

/-- A text at whose head there is no letter that the mark ends with. -/
def Unlettered (s : Text) : Prop := startsWith ['c'] s = false

theorem not_mark_of_ne {c : Char} (hc : c ≠ '\x7b') (s : Text) :
    startsWith optionsMark (c :: s) = false := by
  cases h : startsWith optionsMark (c :: s) with
  | false => rfl
  | true =>
    obtain ⟨rest, hrest⟩ := startsWith_iff.1 h
    exact absurd (List.cons.inj hrest).1 hc

theorem quiet_of_not_mem {u : Text} (hu : '\x7b' ∉ u) (rest : Text) :
    Quiet (startsWith optionsMark) u rest :=
  quiet_of_forall fun _ hc => not_mark_of_ne fun e => hu (e ▸ hc)

theorem not_mem_codeText (n : Nat) : '\x7b' ∉ codeText n := by
  intro h
  rcases List.mem_append.1 h with h | h
  · exact absurd h (by decide)
  · exact absurd (isSome_hexValue?_of_mem_hexText h) (by decide)

theorem Spelling.cases_open {c : Char} {s : Text} (h : Spelling c s) :
    s = ['\x7b'] ∨ '\x7b' ∉ s := by
  cases h with
  | itself =>
    by_cases hc : c = '\x7b'
    · exact .inl (by rw [hc])
    · exact .inr fun h => hc (List.mem_singleton.1 h).symm
  | @letter e he =>
    have hnone : ∀ p ∈ escapes, '\x7b' ∉ ['\\', p.2] := by decide
    exact .inr (hnone _ he)
  | code => exact .inr (not_mem_codeText _)
  | codes => exact .inr (by simp [not_mem_codeText])

/-- A quote within a string is hidden, and the one at its end comes before no letter. -/
theorem not_startsWith_quote (s : Text) {rest : Text} (hrest : Unlettered rest) :
    startsWith ['"', 'c'] (s.flatMap (charText true) ++ '"' :: rest) = false := by
  cases h : startsWith ['"', 'c'] (s.flatMap (charText true) ++ '"' :: rest) with
  | false => rfl
  | true =>
    obtain ⟨r, hr⟩ := startsWith_iff.1 h
    cases s with
    | nil =>
      have hc : startsWith ['c'] rest = true := startsWith_iff.2 ⟨r, (List.cons.inj hr).2⟩
      exact absurd (hc.symm.trans hrest) (by decide)
    | cons c s =>
      rw [List.flatMap_cons, List.append_assoc] at hr
      exact absurd hr (spelling_charText true c).ne_quote

theorem quiet_charTexts (s : Text) {rest : Text} (hrest : Unlettered rest) :
    Quiet (startsWith optionsMark) (s.flatMap (charText true)) ('"' :: rest) := by
  induction s with
  | nil => exact trivial
  | cons c s ih =>
    rw [List.flatMap_cons]
    refine quiet_append.2 ⟨?_, ih⟩
    rcases Spelling.cases_open (spelling_charText true c) with h | h
    · rw [h]
      exact ⟨not_startsWith_quote s hrest, trivial⟩
    · exact quiet_of_not_mem h _

theorem quiet_optional (name : Option Text) {rest : Text} (hrest : Unlettered rest) :
    Quiet (startsWith optionsMark) (write spaced (.optional .str name)) rest := by
  cases name with
  | none => exact quiet_of_not_mem (by decide) rest
  | some s =>
    have hquote : ∀ r, Quiet (startsWith optionsMark) ['"'] r :=
      quiet_of_not_mem (by decide)
    have hstring : write spaced (.optional .str (some s)) =
        ['"'] ++ (s.flatMap (charText true) ++ ['"']) := rfl
    rw [hstring]
    exact quiet_append.2 ⟨hquote _, quiet_append.2 ⟨quiet_charTexts s hrest, hquote _⟩⟩

/-- The options in the order in which they are written. -/
def optionMembers (checkField : Bool) (name fallback : Option Text) : List (Text × Value) := [
  ("check_field", .bool checkField), ("name", .optional .str name),
  ("prefix", .optional .str fallback)]

/-- The options behind their first character. -/
def optionsTail (checkField : Bool) (name fallback : Option Text) : Text :=
  writeMembers spaced (optionMembers checkField name fallback) ++ ['\x7d']

theorem quiet_optionsTail (checkField : Bool) (name fallback : Option Text) :
    Quiet (startsWith optionsMark) (optionsTail checkField name fallback) [] := by
  have hbool : '\x7b' ∉ write spaced (.bool checkField) := by cases checkField <;> decide
  have hmarks : '\x7b' ∉ spaced.nameMark ∧ '\x7b' ∉ spaced.itemMark := by decide
  have hkeys : '\x7b' ∉ stringText spaced.ascii "check_field" ∧
      '\x7b' ∉ stringText spaced.ascii "name" ∧ '\x7b' ∉ stringText spaced.ascii "prefix" := by
    decide
  simp only [optionsTail, optionMembers, writeMembers, quiet_append, quiet_of_not_mem hbool,
    quiet_of_not_mem hmarks.1, quiet_of_not_mem hmarks.2, quiet_of_not_mem hkeys.1,
    quiet_of_not_mem hkeys.2.1, quiet_of_not_mem hkeys.2.2, true_and, and_true]
  have hcomma : ∀ s, Unlettered (spaced.itemMark ++ s) := fun _ => rfl
  have hclose : ∀ s, Unlettered (['\x7d'] ++ s) := fun _ => rfl
  exact ⟨⟨quiet_optional name (hcomma _), quiet_optional fallback (hclose _)⟩,
    quiet_of_not_mem (by decide) _⟩

theorem optionsText_eq (p : Processor) (name fallback : Option Text) :
    Cache.optionsText (p.options name fallback) =
      write spaced (.map (optionMembers p.loader.resolver.checkField name fallback)) := by
  cases name <;> cases fallback <;> rfl

theorem optionsText_cons (p : Processor) (name fallback : Option Text) :
    Cache.optionsText (p.options name fallback) =
      '\x7b' :: optionsTail p.loader.resolver.checkField name fallback :=
  optionsText_eq p name fallback

/-- The options tell the name and the directory. -/
theorem optionsText_injective {p : Processor} {name name' fallback fallback' : Option Text}
    (h : Cache.optionsText (p.options name fallback) =
      Cache.optionsText (p.options name' fallback')) : name = name' ∧ fallback = fallback' := by
  have hexact : ∀ name fallback, isExact (.map (optionMembers p.loader.resolver.checkField name
      fallback)) = true := fun name fallback => by
    simp only [optionMembers, isExact, membersExact, isExact_optional isExact_str, Bool.and_self]
  rw [optionsText_eq, optionsText_eq] at h
  have hend : Ended [] := rfl
  have hmap := (write_append rfl _ (hexact name fallback) (hexact name' fallback') hend hend
    (congrArg (· ++ []) h)).1
  simp only [optionMembers, Value.map.injEq, List.cons.injEq, Prod.mk.injEq, true_and,
    and_true] at hmap
  exact ⟨Value.optional_str_injective hmap.1, Value.optional_str_injective hmap.2⟩

/-! ## Keys -/

theorem ne_append_of_quiet {w s t u : Text} {c : Char} (hs : startsWith w (c :: s) = true)
    (ht : Quiet (startsWith w) t []) : t ≠ u ++ c :: s := by
  rintro rfl
  have hquiet := (quiet_append.1 ht).2.1
  rw [List.append_nil, hs] at hquiet
  cases hquiet

theorem startsWith_optionsText (p : Processor) (name fallback : Option Text) :
    startsWith optionsMark (Cache.optionsText (p.options name fallback)) = true := by
  rw [optionsText_cons]
  rfl

namespace Processor

/-- What the key of a mapping is the digest of. -/
def keyText (p : Processor) (q : Loader.Page) : Text :=
  q.text ++ Cache.optionsText (p.options q.name q.fallback)

/-- **No two mappings** have one text before the digest. -/
theorem keyText_injective (p : Processor) : Function.Injective (keyText p) := by
  rintro ⟨name, fallback, text⟩ ⟨name', fallback', text'⟩ h
  simp only [keyText] at h
  have hinner : ∀ (n f n' f' : Option Text) (d : Char) (u : Text),
      Cache.optionsText (p.options n f) ≠ d :: u ++ Cache.optionsText (p.options n' f') := by
    intro n f n' f' d u e
    have hstart := startsWith_optionsText p n' f'
    rw [optionsText_cons, List.cons_append, optionsText_cons] at e
    rw [optionsText_cons] at hstart
    exact ne_append_of_quiet hstart (quiet_optionsTail _ n f) (List.cons.inj e).2
  obtain rfl : text = text' := by
    rcases List.append_eq_append_iff.1 h with ⟨u, hu, he⟩ | ⟨u, hu, he⟩
    · cases u with
      | nil => rw [hu, List.append_nil]
      | cons d u => exact absurd he (hinner _ _ _ _ d u)
    · cases u with
      | nil => rw [hu, List.append_nil]
      | cons d u => exact absurd he (hinner _ _ _ _ d u)
  obtain ⟨rfl, rfl⟩ := optionsText_injective (List.append_cancel_left h)
  rfl

/-- The octets of a mapping, of which its key is the digest. -/
def keyOctets (p : Processor) (q : Loader.Page) : List UInt8 := octets (keyText p q)

theorem keyOctets_injective (p : Processor) : Function.Injective (keyOctets p) :=
  octets_injective.comp (keyText_injective p)

def keyOf (p : Processor) (q : Loader.Page) : Text :=
  Cache.key q.text (p.options q.name q.fallback)

theorem keyOf_eq (p : Processor) (q : Loader.Page) : keyOf p q = hexOctets (sha256 (keyOctets p q)) :=
  rfl

end Processor
end Crosswalk
