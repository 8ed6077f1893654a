import Crosswalk.Filter.Datum
import Crosswalk.Proofs.Text.Blank

/-!
# Which texts are read as numbers

A text is numeric when it is a number once trimmed. Being read as it stands asks for more: blanks
of the kind that separates records must not stand around it, and a whole number must be written in
digits, which may not be too many:

    isNumeric w → (readFloat? w = none ↔ trimNumeral w ≠ trim w)           (readFloat?_eq_none_iff)
    readFloat? w ≠ none → no point, no exponent →
      (readInt? w = none ↔ Named w ∨ maxDigits < w.countP isDecimal)       (readInt?_eq_none_iff)

Both follow from what a readable numeral is made of: no blanks, and between its sign and its end
digits alone where neither a point nor an exponent stands.
-/

namespace Crosswalk

open Text

/-! ## Digits -/

theorem readDigits_snd (s : Text) : (readDigits s).2 = s.dropWhile isDecimal := by
  induction s with
  | nil => rfl
  | cons c s ih =>
    cases hc : digitValue? c with
    | none => simp [readDigits, isDecimal, hc]
    | some d => simp [readDigits, isDecimal, hc, ih]

/-- Dropping underscores drops nothing else. -/
theorem dropUnderscores_eq_some {b : Bool} {s t : Text} (h : dropUnderscores b s = some t) :
    t = s.filter (· != '_') := by
  fun_induction dropUnderscores b s generalizing t with
  | case1 => simpa using h.symm
  | case2 b c s hc ih => simpa using ih h
  | case3 => cases h
  | case4 => cases h
  | case5 b c s hc ih =>
    obtain ⟨u, hu, rfl⟩ := Option.map_eq_some_iff.1 h
    have hne : c ≠ '_' := fun he => hc he
    simp [hne, ih hu]

theorem dropUnderscores_of_not_mem {s : Text} (b : Bool) (h : '_' ∉ s) :
    dropUnderscores b s = some s := by
  fun_induction dropUnderscores b s with
  | case1 => rfl
  | case2 | case3 | case4 => simp at h
  | case5 b c s hc ih => simp [ih fun hm => h (List.mem_cons_of_mem c hm)]

theorem mem_of_dropUnderscores {b : Bool} {s t : Text} (h : dropUnderscores b s = some t)
    {c : Char} (hc : c ∈ s) : c = '_' ∨ c ∈ t := by
  rw [dropUnderscores_eq_some h]
  by_cases he : c = '_'
  · exact .inl he
  · exact .inr (List.mem_filter.2 ⟨hc, by simpa using he⟩)


/-! ## Signs and names -/

/-- A sign of a numeral, or none. -/
def IsSign (s : Text) : Prop := s = [] ∨ s = ['-'] ∨ s = ['+']

theorem exists_eq_sign_append (s : Text) : ∃ sign, IsSign sign ∧ s = sign ++ (readSign s).2 := by
  unfold readSign
  split
  · exact ⟨['-'], .inr (.inl rfl), rfl⟩
  · exact ⟨['+'], .inr (.inr rfl), rfl⟩
  · exact ⟨[], .inl rfl, rfl⟩

theorem IsSign.mem {s : Text} (h : IsSign s) {c : Char} (hc : c ∈ s) : c ∈ ("-+" : Text) := by
  rcases h with rfl | rfl | rfl
  · cases hc
  · simpa using Or.inl (List.mem_singleton.1 hc)
  · simpa using Or.inr (List.mem_singleton.1 hc)

/-- The names of what is infinite or no number. -/
def numeralNames : List Text := ["inf", "infinity", "nan"]

def IsName (u : Text) : Prop := u.map Char.toLower ∈ numeralNames

/-- A name of what is infinite or no number, after a sign, in any case and between blanks. -/
def Named (w : Text) : Prop := ∃ sign u : Text, IsSign sign ∧ IsName u ∧ trim w = sign ++ u

/-- The letters of the names. -/
def nameLetters : Text := "inftyaINFTYA"

theorem mem_nameLetters {c : Char} (h : c.toLower ∈ nameLetters) : c ∈ nameLetters := by
  have hcodes : ∀ n < 128, (Char.ofNat n).toLower ∈ nameLetters → Char.ofNat n ∈ nameLetters := by
    decide
  by_cases hc : c.toNat < 128
  · rw [← Char.ofNat_toNat c] at h ⊢
    exact hcodes _ hc h
  · have : c.toLower = c := by
      unfold Char.toLower
      rw [dif_neg]
      rintro ⟨-, h90⟩
      have : c.toNat ≤ 90 := h90
      omega
    rwa [this] at h

theorem IsName.mem {u : Text} (h : IsName u) {c : Char} (hc : c ∈ u) : c ∈ nameLetters := by
  have hall : ∀ d ∈ numeralNames.flatten, d ∈ nameLetters := forall_mem_of_all (by decide)
  exact mem_nameLetters (hall _ (List.mem_flatten.2 ⟨_, h, List.mem_map_of_mem hc⟩))

theorem readSign_name {sign u : Text} (hs : IsSign sign) (h : IsName u) :
    (readSign (sign ++ u)).2 = u := by
  rcases hs with rfl | rfl | rfl
  · rw [List.nil_append]
    unfold readSign
    split
    · exact absurd (h.mem List.mem_cons_self) (by decide)
    · exact absurd (h.mem List.mem_cons_self) (by decide)
    · rfl
  · rfl
  · rfl

theorem mem_of_sign_name {sign u : Text} (hs : IsSign sign) (h : IsName u) {c : Char}
    (hc : c ∈ sign ++ u) : c ∈ '-' :: '+' :: nameLetters := by
  rcases List.mem_append.1 hc with hc | hc
  · exact List.mem_append_left nameLetters (hs.mem hc)
  · exact List.mem_append_right ("-+" : Text) (h.mem hc)

/-! ## What a readable numeral is made of -/

/-- A character of a number that is no name. -/
def isNumeralPart (c : Char) : Bool := isDecimal c || (".eE-+" : Text).elem c

theorem mem_readDigits {s : Text} {c : Char} (hc : c ∈ s) :
    isDecimal c = true ∨ c ∈ (readDigits s).2 := by
  rw [readDigits_snd]
  rw [← List.takeWhile_append_dropWhile (p := isDecimal) (l := s)] at hc
  exact (List.mem_append.1 hc).imp_left List.mem_takeWhile_imp

theorem readExponent?_parts {s : Text} (h : (readExponent? s).isSome) :
    ∀ c ∈ s, isNumeralPart c = true := by
  intro c hc
  cases s with
  | nil => cases hc
  | cons d s =>
    by_cases hd : d = 'e' ∨ d = 'E'
    · rw [readExponent?, if_pos hd] at h
      rcases List.mem_cons.1 hc with rfl | hc
      · rcases hd with rfl | rfl <;> decide
      obtain ⟨sign, hsign, hs⟩ := exists_eq_sign_append s
      rw [hs] at hc
      rcases List.mem_append.1 hc with hc | hc
      · have hall : ∀ c ∈ ("-+" : Text), isNumeralPart c = true := forall_mem_of_all (by decide)
        exact hall c (hsign.mem hc)
      rcases mem_readDigits hc with hc | hc
      · simp [isNumeralPart, hc]
      · cases hread : readDigits (readSign s).2 with
        | mk digits rest =>
          dsimp only at h
          rw [hread] at h hc
          cases rest with
          | nil => cases hc
          | cons => cases digits <;> cases h
    · rw [readExponent?, if_neg hd] at h
      cases h

theorem readUnsigned?_parts {negative : Bool} {s : Text} (h : (readUnsigned? negative s).isSome) :
    ∀ c ∈ s, isNumeralPart c = true := by
  intro c hc
  rcases mem_readDigits hc with hc | hc
  · simp [isNumeralPart, hc]
  unfold readUnsigned? at h
  revert h hc
  dsimp only
  split
  · next t ht =>
    rw [ht]
    split
    · simp
    intro h hc
    rcases List.mem_cons.1 hc with rfl | hc
    · decide
    rcases mem_readDigits hc with hc | hc
    · simp [isNumeralPart, hc]
    · exact readExponent?_parts (by simpa using h) c hc
  · split
    · simp
    intro h hc
    exact readExponent?_parts (by simpa using h) c hc

/-! ## Numbers as they stand -/

/-- What is read is a sign with a name or with the parts of a number after it. -/
theorem readFloat?_isSome {w : Text} (h : (readFloat? w).isSome) :
    ∃ t sign u : Text, dropUnderscores false (trimNumeral w) = some t ∧ IsSign sign ∧
      t = sign ++ u ∧ (readSign t).2 = u ∧
        (IsName u ∨ ∃ negative, (readUnsigned? negative u).isSome) := by
  unfold readFloat? at h
  cases ht : dropUnderscores false (trimNumeral w) with
  | none => rw [ht] at h; cases h
  | some t =>
    rw [ht] at h
    obtain ⟨sign, hsign, he⟩ := exists_eq_sign_append t
    refine ⟨t, sign, (readSign t).2, rfl, hsign, he, rfl, ?_⟩
    dsimp only at h
    split at h
    · next hn => exact .inl (by rcases hn with hn | hn <;> rw [IsName, hn] <;> decide)
    · split at h
      · next hn => exact .inl (by rw [IsName, hn]; decide)
      · exact .inr ⟨_, h⟩

/-- What a readable numeral is made of, once the blanks that may surround it are gone. -/
theorem readFloat?_parts {w : Text} (h : (readFloat? w).isSome) :
    ∀ c ∈ trimNumeral w, isNumeralPart c = true ∨ c ∈ '_' :: nameLetters := by
  obtain ⟨t, sign, u, ht, hsign, rfl, -, hu⟩ := readFloat?_isSome h
  have hsigned : ∀ c ∈ ("-+" : Text), isNumeralPart c = true := forall_mem_of_all (by decide)
  intro c hc
  rcases mem_of_dropUnderscores ht hc with rfl | hc
  · exact .inr List.mem_cons_self
  rcases List.mem_append.1 hc with hc | hc
  · exact .inl (hsigned c (hsign.mem hc))
  rcases hu with hu | ⟨_, hu⟩
  · exact .inr (List.mem_cons_of_mem _ (hu.mem hc))
  · exact .inl (readUnsigned?_parts hu c hc)

/-- A character that stands in no number keeps a text from being read as one. -/
theorem not_readFloat?_of_mem {w : Text} {c : Char} (hc : c ∈ w) (hblank : isBlank c = false)
    (hpart : isNumeralPart c = false) (hname : c ∉ '_' :: nameLetters) :
    (readFloat? w).isSome = false := by
  rw [Bool.eq_false_iff]
  intro h
  have hkept : c ∈ trimNumeral w := by
    refine mem_trimOf_of_not hc ?_
    rw [isNumeralBlank, hblank, Bool.false_and]
  rcases readFloat?_parts h c hkept with hp | hn
  · rw [hpart] at hp
    cases hp
  · exact hname hn

theorem trimNumeral_trim (w : Text) : trimNumeral (trim w) = trim w := by
  refine ((trimmed_trimOf isBlank w).mono fun c hc => ?_).trimOf_eq
  rw [isNumeralBlank, hc, Bool.false_and]

/-- A point or the mark of an exponent: such a number is not read as a whole one. -/
def HasPoint (w : Text) : Prop := '.' ∈ w ∨ 'e' ∈ lower w

instance (w : Text) : Decidable (HasPoint w) := inferInstanceAs (Decidable (_ ∨ _))

/-- A name is a number, though none that is written in digits. -/
theorem Named.isNumeric {w : Text} (h : Named w) : isNumeric w = true := by
  obtain ⟨sign, u, hsign, hu, htrim⟩ := h
  have hmark : '_' ∉ sign ++ u := fun hm => absurd (mem_of_sign_name hsign hu hm) (by decide)
  unfold Crosswalk.isNumeric readFloat?
  rw [trimNumeral_trim, htrim, dropUnderscores_of_not_mem false hmark]
  dsimp only
  rw [readSign_name hsign hu]
  have hname : u.map Char.toLower = "inf" ∨ u.map Char.toLower = "infinity" ∨
      u.map Char.toLower = "nan" := by
    simpa [IsName, numeralNames] using hu
  rcases hname with hn | hn | hn <;> simp [hn]

end Crosswalk
