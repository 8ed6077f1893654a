import Crosswalk.Proofs.Text.Mark
import Crosswalk.Xml.Reader

/-!
# Tags, read from left to right

Names, references, attributes and whole tags are taken off the head of a text without regard to
what follows:

    readTag? scope s = some (g, rest) → readTag? scope (s ++ z) = some (g, rest ++ z)
                                                                                  (readTag?_append)

A name ends where the next character is of another kind, so it needs some character to stop at.
-/

namespace Crosswalk.Xml

open Text

variable {s t z rest : Text}

/-! ## Names and references -/

theorem skipSpace_append (h : skipSpace s ≠ []) (z : Text) :
    skipSpace (s ++ z) = skipSpace s ++ z := by
  unfold skipSpace at *
  rw [List.dropWhile_append, if_neg (by simpa using h)]

theorem length_skipSpace (s : Text) : (skipSpace s).length ≤ s.length :=
  (List.dropWhile_sublist _).length_le

theorem readBase?_append {a : Text} (h : readBase? s = some (a, rest)) (hrest : rest ≠ [])
    (z : Text) : readBase? (s ++ z) = some (a, rest ++ z) := by
  cases s with
  | nil => cases h
  | cons c t =>
    unfold readBase? at h ⊢
    dsimp only [List.cons_append] at h ⊢
    split at h
    · next hc =>
      cases h
      have hstop : (t.takeWhile isNamePart).length ≠ t.length := by
        intro hall
        have hboth : t.takeWhile isNamePart ++ t.dropWhile isNamePart = t :=
          List.takeWhile_append_dropWhile
        have hlength := congrArg List.length hboth
        rw [List.length_append] at hlength
        exact hrest (List.length_eq_zero_iff.1 (by omega))
      rw [if_pos hc, List.takeWhile_append, if_neg hstop, List.dropWhile_append,
        if_neg (by simpa using hrest)]
    · cases h

theorem length_readBase? {a : Text} (h : readBase? s = some (a, rest)) :
    rest.length < s.length := by
  cases s with
  | nil => cases h
  | cons c t =>
    unfold readBase? at h
    dsimp only at h
    split at h
    · cases h
      exact Nat.lt_succ_of_le (List.dropWhile_sublist _).length_le
    · cases h

/-- A base that no colon follows is a name. -/
theorem readName?_of_base {a : Text} (h : readBase? s = some (a, rest))
    (hcolon : ∀ t, rest ≠ ':' :: t) : readName? s = some (([], a), rest) := by
  unfold readName?
  rw [h]
  split
  · next hnone => cases hnone
  · next heq =>
    cases heq
    exact absurd rfl (hcolon _)
  · next heq =>
    cases heq
    rfl

theorem readName?_of_colon {a t : Text} (h : readBase? s = some (a, ':' :: t)) :
    readName? s = (readBase? t).map fun p => ((a, p.1), p.2) := by
  unfold readName?
  rw [h]
  rfl

theorem readName?_append {name : Text × Text} (h : readName? s = some (name, rest))
    (hrest : rest ≠ []) (z : Text) : readName? (s ++ z) = some (name, rest ++ z) := by
  cases hbase : readBase? s with
  | none =>
    rw [readName?, hbase] at h
    cases h
  | some p =>
    obtain ⟨a, t⟩ := p
    by_cases hcolon : ∃ u, t = ':' :: u
    · obtain ⟨u, rfl⟩ := hcolon
      rw [readName?_of_colon hbase] at h
      obtain ⟨p, hp, he⟩ := Option.map_eq_some_iff.1 h
      obtain ⟨rfl, rfl⟩ := Prod.mk.inj he
      have hlonger : readBase? (s ++ z) = some (a, ':' :: (u ++ z)) :=
        readBase?_append hbase (List.cons_ne_nil _ _) z
      rw [readName?_of_colon hlonger, readBase?_append hp hrest]
      rfl
    · have hnot : ∀ u, t ≠ ':' :: u := fun u e => hcolon ⟨u, e⟩
      rw [readName?_of_base hbase hnot] at h
      cases h
      refine readName?_of_base (readBase?_append hbase hrest z) fun u e => ?_
      obtain ⟨c, v, rfl⟩ := List.exists_cons_of_ne_nil hrest
      obtain ⟨rfl, -⟩ := List.cons.inj e
      exact hnot v rfl

theorem length_readName? {name : Text × Text} (h : readName? s = some (name, rest)) :
    rest.length < s.length := by
  cases hbase : readBase? s with
  | none =>
    rw [readName?, hbase] at h
    cases h
  | some p =>
    obtain ⟨a, t⟩ := p
    have hshorter := length_readBase? hbase
    by_cases hcolon : ∃ u, t = ':' :: u
    · obtain ⟨u, rfl⟩ := hcolon
      rw [readName?_of_colon hbase] at h
      obtain ⟨p, hp, he⟩ := Option.map_eq_some_iff.1 h
      obtain ⟨rfl, rfl⟩ := Prod.mk.inj he
      have hlast := length_readBase? hp
      rw [List.length_cons] at hshorter
      omega
    · rw [readName?_of_base hbase fun u e => hcolon ⟨u, e⟩] at h
      cases h
      exact hshorter

theorem readReference?_append {c : Char} (h : readReference? s = some (c, rest)) (z : Text) :
    readReference? (s ++ z) = some (c, rest ++ z) := by
  unfold readReference? at h ⊢
  cases hcut : cutChar? ';' s with
  | none => rw [hcut] at h; cases h
  | some p =>
    rw [hcut] at h
    rw [cutChar?_append_right hcut z]
    dsimp only at h ⊢
    split at h <;>
    · obtain ⟨d, hd, he⟩ := Option.map_eq_some_iff.1 h
      obtain ⟨rfl, rfl⟩ := Prod.mk.inj he
      rw [hd]
      rfl

theorem suffix_readReference? {c : Char} (h : readReference? s = some (c, rest)) :
    ∃ name, s = name ++ ';' :: rest := by
  unfold readReference? at h
  cases hcut : cutChar? ';' s with
  | none => rw [hcut] at h; cases h
  | some p =>
    rw [hcut] at h
    refine ⟨p.1, ?_⟩
    dsimp only at h
    split at h <;>
    · obtain ⟨d, hd, he⟩ := Option.map_eq_some_iff.1 h
      obtain ⟨rfl, rfl⟩ := Prod.mk.inj he
      exact cutChar?_eq_some hcut

theorem length_readReference? {c : Char} (h : readReference? s = some (c, rest)) :
    rest.length < s.length := by
  obtain ⟨name, rfl⟩ := suffix_readReference? h
  simp
  omega

/-! ## Attributes -/

theorem readValue?_append {quote : Char} {fuel fuel' : Nat} {a : Text}
    (h : readValue? quote fuel s = some (a, rest)) (hfuel : (s ++ z).length < fuel') :
    rest.length < s.length ∧ readValue? quote fuel' (s ++ z) = some (a, rest ++ z) := by
  induction fuel generalizing s a fuel' with
  | zero => cases h
  | succ fuel ih =>
    obtain ⟨fuel', rfl⟩ : ∃ n, fuel' = n + 1 := ⟨fuel' - 1, by omega⟩
    cases s with
    | nil => cases h
    | cons c s =>
      rw [List.cons_append, List.length_cons] at hfuel
      rw [readValue?] at h
      rw [List.cons_append, readValue?, List.length_cons]
      split at h
      · next hc =>
        cases h
        exact ⟨Nat.lt_succ_self _, if_pos hc⟩
      · next hc =>
        rw [if_neg hc]
        split at h
        · cases h
        · next hbad =>
          rw [if_neg hbad]
          split at h
          · next hamp =>
            rw [if_pos hamp]
            cases href : readReference? s with
            | none => rw [href] at h; cases h
            | some p =>
              obtain ⟨d, t⟩ := p
              rw [href] at h
              obtain ⟨p, hp, he⟩ := Option.map_eq_some_iff.1 h
              obtain ⟨rfl, rfl⟩ := Prod.mk.inj he
              have hshorter := length_readReference? href
              have hroom : (t ++ z).length < fuel' := by
                rw [List.length_append] at hfuel ⊢
                omega
              obtain ⟨hlength, hread⟩ := ih hp hroom
              rw [readReference?_append href]
              exact ⟨by omega, congrArg (Option.map _) hread⟩
          · next hamp =>
            rw [if_neg hamp]
            obtain ⟨p, hp, he⟩ := Option.map_eq_some_iff.1 h
            obtain ⟨rfl, rfl⟩ := Prod.mk.inj he
            have hroom : (s ++ z).length < fuel' := by omega
            obtain ⟨hlength, hread⟩ := ih hp hroom
            exact ⟨by omega, congrArg (Option.map _) hread⟩

/-- An attribute is a name, an equals sign and a value between quotes. -/
theorem readAttribute?_eq_some {a : Written} : readAttribute? s = some (a, rest) ↔
    ∃ name t u quote v value, readName? s = some (name, t) ∧ skipSpace t = '=' :: u ∧
      skipSpace u = quote :: v ∧ (quote = '"' ∨ quote = '\'') ∧
      readValue? quote (v.length + 1) v = some (value, rest) ∧ a = (name, value) := by
  unfold readAttribute?
  constructor
  · intro h
    split at h
    · cases h
    · next name t hname =>
      split at h
      · next u hu =>
        split at h
        · next quote v hv =>
          split at h
          · next hquote =>
            obtain ⟨p, hp, he⟩ := Option.map_eq_some_iff.1 h
            obtain ⟨rfl, rfl⟩ := Prod.mk.inj he
            exact ⟨name, t, u, quote, v, p.1, hname, hu, hv, hquote, hp, rfl⟩
          · cases h
        · cases h
      · cases h
  · rintro ⟨name, t, u, quote, v, value, hname, hu, hv, hquote, hvalue, rfl⟩
    simp only [hname, hu, hv, if_pos hquote, hvalue, Option.map_some]

theorem readAttribute?_append {a : Written} (h : readAttribute? s = some (a, rest)) (z : Text) :
    rest.length < s.length ∧ readAttribute? (s ++ z) = some (a, rest ++ z) := by
  obtain ⟨name, t, u, quote, v, value, hname, hu, hv, hquote, hvalue, rfl⟩ :=
    readAttribute?_eq_some.1 h
  have ht : skipSpace t ≠ [] := hu ▸ List.cons_ne_nil _ _
  have hu' : skipSpace u ≠ [] := hv ▸ List.cons_ne_nil _ _
  have htne : t ≠ [] := fun e => ht (by rw [e]; rfl)
  obtain ⟨hlength, hread⟩ := readValue?_append (z := z) hvalue (Nat.lt_succ_self _)
  constructor
  · have hname' := length_readName? hname
    have ht' := length_skipSpace t
    have hu'' := length_skipSpace u
    rw [hu, List.length_cons] at ht'
    rw [hv, List.length_cons] at hu''
    omega
  · refine readAttribute?_eq_some.2 ⟨name, t ++ z, u ++ z, quote, v ++ z, value,
      readName?_append hname htne z, ?_, ?_, hquote, hread, rfl⟩
    · rw [skipSpace_append ht, hu]
      rfl
    · rw [skipSpace_append hu', hv]
      rfl

/-- The attributes end before the end of the tag. -/
def IsTagEnd (s : Text) : Prop := ∃ c t, s = c :: t ∧ (c = '>' ∨ c = '/')

theorem readAttributes?_of_end {fuel : Nat} (h : IsTagEnd (skipSpace s)) :
    readAttributes? (fuel + 1) s = some ([], skipSpace s) := by
  obtain ⟨c, t, hs, rfl | rfl⟩ := h <;> simp [readAttributes?, hs]

theorem readAttributes?_of_not_end {fuel : Nat} (h : ¬ IsTagEnd (skipSpace s)) :
    readAttributes? (fuel + 1) s =
      if (skipSpace s).length < s.length then
        (readAttribute? (skipSpace s)).bind fun p =>
          (readAttributes? fuel p.2).map fun q => (p.1 :: q.1, q.2)
      else none := by
  rw [readAttributes?]
  split
  · next t ht => exact absurd ⟨_, t, ht, .inl rfl⟩ h
  · next t ht => exact absurd ⟨_, t, ht, .inr rfl⟩ h
  · cases readAttribute? (skipSpace s) <;> rfl

theorem readAttributes?_append {fuel fuel' : Nat} {written : List Written}
    (h : readAttributes? fuel s = some (written, rest)) (hfuel : (s ++ z).length < fuel') :
    IsTagEnd rest ∧ rest.length ≤ s.length ∧
      readAttributes? fuel' (s ++ z) = some (written, rest ++ z) := by
  induction fuel generalizing s written fuel' with
  | zero => cases h
  | succ fuel ih =>
    obtain ⟨fuel', rfl⟩ : ∃ n, fuel' = n + 1 := ⟨fuel' - 1, by omega⟩
    have hspace := length_skipSpace s
    by_cases hend : IsTagEnd (skipSpace s)
    · have hne : skipSpace s ≠ [] := by
        obtain ⟨c, t, hs, -⟩ := hend
        exact hs ▸ List.cons_ne_nil _ _
      rw [readAttributes?_of_end hend] at h
      cases h
      have hend' : IsTagEnd (skipSpace (s ++ z)) := by
        rw [skipSpace_append hne]
        obtain ⟨c, t, hs, hc⟩ := hend
        exact ⟨c, t ++ z, by rw [hs]; rfl, hc⟩
      refine ⟨hend, hspace, ?_⟩
      rw [readAttributes?_of_end hend', skipSpace_append hne]
    · rw [readAttributes?_of_not_end hend] at h
      split at h
      · next hshorter =>
        obtain ⟨p, hp, h⟩ := Option.bind_eq_some_iff.1 h
        obtain ⟨q, hq, he⟩ := Option.map_eq_some_iff.1 h
        obtain ⟨rfl, rfl⟩ := Prod.mk.inj he
        obtain ⟨hlength, hread⟩ := readAttribute?_append hp z
        have hne : skipSpace s ≠ [] := fun e => by rw [e] at hlength; exact absurd hlength (by simp)
        have hend' : ¬ IsTagEnd (skipSpace (s ++ z)) := by
          rw [skipSpace_append hne]
          rintro ⟨c, t, hs, hc⟩
          obtain ⟨d, u, hd⟩ := List.exists_cons_of_ne_nil hne
          rw [hd] at hs
          obtain ⟨rfl, -⟩ := List.cons.inj hs
          exact hend ⟨_, u, hd, hc⟩
        have hroom : (p.2 ++ z).length < fuel' := by
          rw [List.length_append] at hfuel ⊢
          omega
        obtain ⟨hlast, hrest, hmore⟩ := ih hq hroom
        refine ⟨hlast, by omega, ?_⟩
        rw [readAttributes?_of_not_end hend', skipSpace_append hne, List.length_append,
          List.length_append, if_pos (by omega), hread]
        show (readAttributes? fuel' (p.2 ++ z)).map _ = _
        rw [hmore]
        rfl
      · cases h

/-! ## Tags -/

variable {scope : Spaces}

/-- What a tag says, from its name on: the element without its children, the namespaces inside, and
what follows the attributes. -/
structure Tag where
  written : Text × Text
  name : QName
  attributes : List Attribute
  declared : Spaces
  inside : Spaces

def Tag.element (g : Tag) (children : List Node) : Node :=
  .element g.name g.attributes g.declared children

def readTag? (scope : Spaces) (s : Text) : Option (Tag × Text) :=
  (readName? s).bind fun p => (readAttributes? (p.2.length + 1) p.2).bind fun a =>
    (resolveTag? scope p.1 a.1).map fun r => (⟨p.1, r.1, r.2.1, r.2.2.1, r.2.2.2⟩, a.2)

theorem readTag?_append {g : Tag} (h : readTag? scope s = some (g, rest)) (z : Text) :
    IsTagEnd rest ∧ rest.length < s.length ∧ readTag? scope (s ++ z) = some (g, rest ++ z) := by
  obtain ⟨p, hp, h⟩ := Option.bind_eq_some_iff.1 h
  obtain ⟨a, ha, h⟩ := Option.bind_eq_some_iff.1 h
  obtain ⟨r, hr, he⟩ := Option.map_eq_some_iff.1 h
  obtain ⟨rfl, rfl⟩ := Prod.mk.inj he
  have hroom : (p.2 ++ z).length < (p.2 ++ z).length + 1 := Nat.lt_succ_self _
  obtain ⟨hend, hlength, hread⟩ := readAttributes?_append ha hroom
  have hshorter := length_readName? hp
  have hne : p.2 ≠ [] := by
    intro hnil
    obtain ⟨c, t, hc, -⟩ := hend
    rw [hnil, hc] at hlength
    exact absurd hlength (by simp)
  refine ⟨hend, by omega, ?_⟩
  rw [readTag?, readName?_append hp hne, Option.bind_some, hread, Option.bind_some, hr]
  rfl

theorem readTag?_name {p : Tag × Text} (h : readTag? scope s = some p) :
    ∃ c t, s = c :: t ∧ isNameStart c = true := by
  obtain ⟨q, hq, -⟩ := Option.bind_eq_some_iff.1 h
  cases hbase : readBase? s with
  | none =>
    rw [readName?, hbase] at hq
    cases hq
  | some b =>
    cases s with
    | nil => cases hbase
    | cons c t =>
      rw [readBase?] at hbase
      split at hbase
      · next hc => exact ⟨c, t, rfl, hc⟩
      · cases hbase

theorem ne_of_isNameStart {c d : Char} (hc : isNameStart c = true) (hd : isNameStart d = false) :
    c ≠ d := by
  rintro rfl
  rw [hc] at hd
  cases hd

theorem endTag?_append {name : Text × Text} (h : endTag? name s = some rest) (z : Text) :
    rest.length < s.length ∧ endTag? name (s ++ z) = some (rest ++ z) := by
  unfold endTag? at h ⊢
  cases hname : readName? s with
  | none => rw [hname] at h; cases h
  | some p =>
    obtain ⟨n, t⟩ := p
    rw [hname] at h
    dsimp only at h
    split at h
    · next hn =>
      split at h
      · next u hu =>
        cases h
        have hne : skipSpace t ≠ [] := hu ▸ List.cons_ne_nil _ _
        have htne : t ≠ [] := fun e => hne (by rw [e]; rfl)
        have hshorter := length_readName? hname
        have hspace := length_skipSpace t
        rw [hu, List.length_cons] at hspace
        refine ⟨by omega, ?_⟩
        rw [readName?_append hname htne]
        dsimp only
        rw [if_pos hn, skipSpace_append hne, hu]
        rfl
      · cases h
    · cases h

end Crosswalk.Xml
