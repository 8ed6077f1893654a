import Crosswalk.Destination.Field
import Crosswalk.Proofs.Merge
import Crosswalk.Proofs.Text.Replace

/-!
# Looking for fields

A field is searched in the lists of a matcher, in each as it is written and then in lower case. Both
searches of a list look for keys with one lower case (`isSome_search_iff`), so that the case of a
field does not decide whether it is found, only in which form of a list:

    lower (cleanName f) = lower (cleanName g) → (m.match? f).isSome = (m.match? g).isSome
                                                                                (match?_lower)

The terms of the lists come from the override table and from the names of the register
(`term_of_mem_lists`).
-/

namespace Crosswalk

open Text

namespace FieldMatcher

variable {m : FieldMatcher} {r : Register} {list : Pairs Text Text} {name key term : Text}

/-! ## Names -/

theorem canonicalTerm_short (localName : Text) :
    canonicalTerm (shortMark ++ localName) = longMark ++ localName := by
  rw [canonicalTerm, after?_append]

theorem canonicalTerm_of_not_short (h : startsWith shortMark name = false) :
    canonicalTerm name = name := by
  rw [canonicalTerm, after?_eq_none.2 h]

/-- A name is under the short name of Dublin Core or stands for itself. -/
theorem canonicalTerm_cases (name : Text) :
    (∃ localName, name = shortMark ++ localName ∧ canonicalTerm name = longMark ++ localName) ∨
      startsWith shortMark name = false ∧ canonicalTerm name = name := by
  cases h : after? shortMark name with
  | some localName =>
    obtain rfl := after?_eq_some.1 h
    exact .inl ⟨localName, rfl, canonicalTerm_short localName⟩
  | none =>
    have hstart := after?_eq_none.1 h
    exact .inr ⟨hstart, canonicalTerm_of_not_short hstart⟩

theorem not_short_long (localName : Text) : startsWith shortMark (longMark ++ localName) = false :=
  rfl

theorem canonicalTerm_canonicalTerm (name : Text) :
    canonicalTerm (canonicalTerm name) = canonicalTerm name := by
  rcases canonicalTerm_cases name with ⟨localName, -, h⟩ | ⟨-, h⟩
  · rw [h, canonicalTerm_of_not_short (not_short_long localName)]
  · rw [h, h]

theorem canonicalTerm_ne_nil (h : name ≠ []) : canonicalTerm name ≠ [] := by
  rcases canonicalTerm_cases name with ⟨localName, -, hterm⟩ | ⟨-, hterm⟩
  · rw [hterm]
    exact List.cons_ne_nil _ _
  · rwa [hterm]

/-- What a name adds to the names. -/
def addShort (m : Pairs Text Text) (p : Text × Text) : Pairs Text Text :=
  match after? longMark p.1 with
  | some localName => m.putNew (shortMark ++ localName) p.2
  | none => m

theorem mem_keys_addShort {m : Pairs Text Text} {p : Text × Text} :
    name ∈ Pairs.keys (addShort m p) ↔ name ∈ Pairs.keys m ∨
      ∃ localName, p.1 = longMark ++ localName ∧ name = shortMark ++ localName := by
  unfold addShort
  cases h : after? longMark p.1 with
  | some localName =>
    rw [Pairs.mem_keys_putNew, or_comm, after?_eq_some.1 h]
    simp
  | none =>
    have hnone : ∀ localName, p.1 ≠ longMark ++ localName := by
      intro localName e
      rw [after?_eq_some.2 e] at h
      cases h
    simp [hnone]

theorem mem_keys_foldl_addShort {ps m : Pairs Text Text} :
    name ∈ Pairs.keys (ps.foldl addShort m) ↔ name ∈ Pairs.keys m ∨
      ∃ localName, longMark ++ localName ∈ Pairs.keys ps ∧ name = shortMark ++ localName := by
  induction ps generalizing m with
  | nil => simp [Pairs.keys]
  | cons p ps ih =>
    have hkeys : Pairs.keys (p :: ps) = p.1 :: Pairs.keys ps := rfl
    rw [List.foldl_cons, ih, mem_keys_addShort, hkeys, or_assoc]
    refine or_congr_right ?_
    constructor
    · rintro (⟨localName, hp, hname⟩ | ⟨localName, hp, hname⟩)
      · exact ⟨localName, hp ▸ List.mem_cons_self, hname⟩
      · exact ⟨localName, List.mem_cons_of_mem _ hp, hname⟩
    · rintro ⟨localName, hp, hname⟩
      rcases List.mem_cons.1 hp with hp | hp
      · exact .inl ⟨localName, hp.symm, hname⟩
      · exact .inr ⟨localName, hp, hname⟩

/-- The names are the terms, and the Dublin Core terms under their short name. -/
theorem mem_keys_names : name ∈ Pairs.keys (names r) ↔ name ∈ Pairs.keys r.terms ∨
    ∃ localName, longMark ++ localName ∈ Pairs.keys r.terms ∧ name = shortMark ++ localName :=
  mem_keys_foldl_addShort

/-! ## Lists -/

/-- The terms come from the override table or from a name. -/
theorem term_of_mem_lists (hlist : list ∈ m.lists) {p : Text × Text} (hp : p ∈ list) :
    (∃ q ∈ m.overrides, q.2 = p.2) ∨
      ∃ name ∈ Pairs.keys (names m.register), p.2 = canonicalTerm name := by
  have hname : ∀ p ∈ byName m.register, ∃ name ∈ Pairs.keys (names m.register),
      p.2 = canonicalTerm name := by
    intro p hp
    obtain ⟨q, hq, rfl⟩ := List.mem_map.1 hp
    exact ⟨q.1, List.mem_map_of_mem hq, rfl⟩
  have hlabel : ∀ p ∈ byLabel m.register, ∃ name ∈ Pairs.keys (names m.register),
      p.2 = canonicalTerm name := by
    intro p hp
    obtain ⟨q, hq, rfl⟩ := List.mem_map.1 (Pairs.mem_ofList hp)
    exact ⟨q.1, List.mem_map_of_mem hq, rfl⟩
  have hwithout : ∀ {ps : Pairs Text Text}, (∀ p ∈ ps, ∃ name ∈ Pairs.keys (names m.register),
      p.2 = canonicalTerm name) → ∀ p ∈ withoutVocabulary ps,
        ∃ name ∈ Pairs.keys (names m.register), p.2 = canonicalTerm name := by
    intro ps hps p hp
    obtain ⟨q, hq, rfl⟩ := List.mem_map.1 (Pairs.mem_ofList hp)
    exact hps q hq
  have hcases : list = m.cleanOverrides ∨ list = byName m.register ∨ list = byLabel m.register ∨
      list = withoutVocabulary (byName m.register) ∨
        list = withoutVocabulary (byLabel m.register) := by
    unfold lists at hlist
    dsimp only at hlist
    split at hlist <;> simp at hlist <;> tauto
  rcases hcases with rfl | rfl | rfl | rfl | rfl
  · obtain ⟨q, hq, rfl⟩ := List.mem_map.1 (Pairs.mem_ofList hp)
    exact .inl ⟨q, hq, rfl⟩
  · exact .inr (hname p hp)
  · exact .inr (hlabel p hp)
  · exact .inr (hwithout hname p hp)
  · exact .inr (hwithout hlabel p hp)

/-! ## Searching a list -/

/-- The term of a name in a list, as it is written or else in lower case. -/
def search (name : Text) (list : Pairs Text Text) : Option Text :=
  match lookup name list with
  | some term => some term
  | none => lookup (lower name) (lowered list)

theorem match?_eq (m : FieldMatcher) (field : Text) :
    m.match? field = m.lists.findSome? (search (cleanName field)) := rfl

theorem mem_of_lookup (h : lookup key list = some term) : (key, term) ∈ list ∧ term ≠ [] := by
  obtain ⟨value, hget, hvalue⟩ := Option.bind_eq_some_iff.1 h
  split at hvalue
  · cases hvalue
  · next hne =>
    obtain rfl := Option.some.inj hvalue
    exact ⟨Pairs.mem_of_get? hget, hne⟩

theorem mem_of_search (h : search name list = some term) : ∃ p ∈ list, p.2 = term := by
  unfold search at h
  split at h
  · next hlookup =>
    obtain rfl := Option.some.inj h
    exact ⟨_, (mem_of_lookup hlookup).1, rfl⟩
  · obtain ⟨p, hp, heq⟩ := List.mem_map.1 (mem_of_lookup h).1
    exact ⟨p, hp, (Prod.mk.inj heq).2⟩

theorem lookup_isSome_iff (hlist : ∀ p ∈ list, p.2 ≠ []) :
    (lookup key list).isSome = true ↔ key ∈ Pairs.keys list := by
  rw [← Pairs.get?_isSome, lookup]
  cases hget : Pairs.get? key list with
  | none => simp
  | some term => simp [hlist _ (Pairs.mem_of_get? hget)]

theorem keys_lowered (list : Pairs Text Text) :
    Pairs.keys (lowered list) = (Pairs.keys list).map lower := by
  simp [Pairs.keys, lowered]

theorem isSome_search_iff (hlist : ∀ p ∈ list, p.2 ≠ []) :
    (search name list).isSome = true ↔ lower name ∈ (Pairs.keys list).map lower := by
  have hlowered : ∀ p ∈ lowered list, p.2 ≠ [] := by
    intro p hp
    obtain ⟨q, hq, rfl⟩ := List.mem_map.1 hp
    exact hlist q hq
  have hexact : (lookup name list).isSome = true ↔ name ∈ Pairs.keys list :=
    lookup_isSome_iff hlist
  have hlower : (lookup (lower name) (lowered list)).isSome = true ↔
      lower name ∈ Pairs.keys (lowered list) := lookup_isSome_iff hlowered
  rw [keys_lowered] at hlower
  unfold search
  cases hlookup : lookup name list with
  | none => exact hlower
  | some term =>
    rw [hlookup] at hexact
    exact iff_of_true rfl (List.mem_map_of_mem (hexact.1 rfl))

/-! ## Case -/

section

variable {f g : Text} {before after : List (Pairs Text Text)}

/-- A field is found if and only if a list has a key with its lower case. -/
theorem isSome_match?_iff (hlists : ∀ list ∈ m.lists, ∀ p ∈ list, p.2 ≠ []) :
    (m.match? f).isSome = true ↔
      ∃ list ∈ m.lists, lower (cleanName f) ∈ (Pairs.keys list).map lower := by
  rw [match?_eq, List.findSome?_isSome_iff]
  constructor
  · rintro ⟨list, hlist, hfound⟩
    exact ⟨list, hlist, (isSome_search_iff (hlists list hlist)).1 hfound⟩
  · rintro ⟨list, hlist, hkey⟩
    exact ⟨list, hlist, (isSome_search_iff (hlists list hlist)).2 hkey⟩

/-- The field is found in lower case, and neither in a list before nor as it is written. -/
structure FoundAt (before : List (Pairs Text Text)) (list : Pairs Text Text) (field : Text) :
    Prop where
  before : ∀ other ∈ before, search (cleanName field) other = none
  written : lookup (cleanName field) list = none
  lowered : (lookup (lower (cleanName field)) (lowered list)).isSome = true

/-- The field is found only because its case does not count. -/
def FoundLowered (m : FieldMatcher) (field : Text) : Prop :=
  ∃ before list after, m.lists = before ++ list :: after ∧ FoundAt before list field

theorem FoundAt.search_eq (h : FoundAt before list f) :
    search (cleanName f) list = lookup (lower (cleanName f)) (FieldMatcher.lowered list) := by
  rw [search, h.written]

theorem FoundAt.match?_eq (h : FoundAt before list f) (hlists : m.lists = before ++ list :: after) :
    m.match? f = lookup (lower (cleanName f)) (FieldMatcher.lowered list) := by
  have hbefore : before.findSome? (search (cleanName f)) = none :=
    List.findSome?_eq_none_iff.2 h.before
  obtain ⟨term, hterm⟩ := Option.isSome_iff_exists.1 h.lowered
  rw [FieldMatcher.match?_eq, hlists, List.findSome?_append, hbefore, List.findSome?_cons,
    h.search_eq, hterm]
  rfl

/-- Neither of two fields is found before the other. -/
theorem FoundAt.not_mem {before' : List (Pairs Text Text)} {list' : Pairs Text Text}
    (hf : FoundAt before list f) (hg : FoundAt before' list' g) (hlist : ∀ p ∈ list', p.2 ≠ [])
    (h : lower (cleanName f) = lower (cleanName g)) : list' ∉ before := by
  intro hmem
  have hfound : (search (cleanName g) list').isSome = true := by
    rw [hg.search_eq]
    exact hg.lowered
  rw [isSome_search_iff hlist, ← h, ← isSome_search_iff hlist, hf.before list' hmem] at hfound
  cases hfound

theorem FoundLowered.match?_eq (hf : m.FoundLowered f) (hg : m.FoundLowered g)
    (hlists : ∀ list ∈ m.lists, ∀ p ∈ list, p.2 ≠ [])
    (h : lower (cleanName f) = lower (cleanName g)) :
    ∃ term, m.match? f = some term ∧ m.match? g = some term := by
  obtain ⟨x, list, y, hsplit, hfound⟩ := hf
  obtain ⟨x', list', y', hsplit', hfound'⟩ := hg
  have hvalues := hlists list (hsplit ▸ by simp)
  have hvalues' := hlists list' (hsplit' ▸ by simp)
  have hnot : list ∉ x' := hfound'.not_mem hfound hvalues h.symm
  have hnot' : list' ∉ x := hfound.not_mem hfound' hvalues' h
  -- So both stand at the same place.
  have hsame : list = list' := by
    rcases List.append_eq_append_iff.1 (hsplit.symm.trans hsplit') with
      ⟨u, hu, hrest⟩ | ⟨u, hu, hrest⟩
    · cases u with
      | nil => exact (List.cons.inj hrest).1
      | cons first u =>
        obtain ⟨rfl, -⟩ := List.cons.inj hrest
        exact absurd (by simp [hu]) hnot
    · cases u with
      | nil => exact (List.cons.inj hrest).1.symm
      | cons first u =>
        obtain ⟨rfl, -⟩ := List.cons.inj hrest
        exact absurd (by simp [hu]) hnot'
  obtain ⟨term, hterm⟩ := Option.isSome_iff_exists.1 hfound.lowered
  subst hsame
  refine ⟨term, (hfound.match?_eq hsplit).trans hterm, ?_⟩
  rw [hfound'.match?_eq hsplit', ← h, hterm]

/-- A field that is found, but nowhere as it is written. -/
theorem foundLowered_of_not_written (hfound : (m.match? f).isSome = true)
    (hwritten : ∀ list ∈ m.lists, lookup (cleanName f) list = none) : m.FoundLowered f := by
  obtain ⟨term, hterm⟩ := Option.isSome_iff_exists.1 hfound
  obtain ⟨before, list, after, hsplit, hsearch, hbefore⟩ := List.findSome?_eq_some_iff.1 hterm
  have hnone : lookup (cleanName f) list = none := hwritten list (hsplit ▸ by simp)
  have hlowered : lookup (lower (cleanName f)) (lowered list) = some term := by
    rwa [hnone] at hsearch
  exact ⟨before, list, after, hsplit, hbefore, hnone, by rw [hlowered]; rfl⟩

end

/-! ## Vocabularies -/

section

variable {s : Schema}

theorem mem_keys_terms : term ∈ Pairs.keys (Register.ofSchema s).terms ↔
    ∃ p ∈ Register.properties s, p.1.term p.2 = term := by
  have hkeys : Pairs.keys (Register.ofSchema s).terms =
      distinct ((Register.properties s).map fun p => p.1.term p.2) := by
    rw [Register.ofSchema, Pairs.keys_ofList, List.map_map]
    rfl
  rw [hkeys, mem_distinct, List.mem_map]

theorem ne_nil_of_mem_names (h : name ∈ Pairs.keys (names (.ofSchema s))) : name ≠ [] := by
  rcases mem_keys_names.1 h with h | ⟨localName, -, rfl⟩
  · obtain ⟨p, -, rfl⟩ := mem_keys_terms.1 h
    simp [Vocabulary.term]
  · exact List.cons_ne_nil _ _

theorem ne_nil_of_mem_lists {overrides : Pairs Text Text} {namesAlone : Bool}
    (hoverrides : ∀ p ∈ overrides, p.2 ≠ []) :
    ∀ list ∈ lists ⟨.ofSchema s, overrides, namesAlone⟩, ∀ p ∈ list, p.2 ≠ [] := by
  intro list hlist p hp
  rcases term_of_mem_lists hlist hp with ⟨q, hq, hterm⟩ | ⟨name, hname, hterm⟩
  · rw [← hterm]
    exact hoverrides q hq
  · rw [hterm]
    exact canonicalTerm_ne_nil (ne_nil_of_mem_names hname)

/-- **Case never decides whether a field is known**, and fields that are found only because their
case does not count have the same term. -/
theorem match?_lower (s : Schema) {overrides : Pairs Text Text}
    (hoverrides : ∀ p ∈ overrides, p.2 ≠ []) (namesAlone : Bool) {f g : Text}
    (h : lower (cleanName f) = lower (cleanName g)) :
    ((match? ⟨.ofSchema s, overrides, namesAlone⟩ f).isSome = true ↔
      (match? ⟨.ofSchema s, overrides, namesAlone⟩ g).isSome = true) ∧
    (FoundLowered ⟨.ofSchema s, overrides, namesAlone⟩ f →
      FoundLowered ⟨.ofSchema s, overrides, namesAlone⟩ g →
      ∃ term, match? ⟨.ofSchema s, overrides, namesAlone⟩ f = some term ∧
        match? ⟨.ofSchema s, overrides, namesAlone⟩ g = some term) := by
  have hlists : ∀ list ∈ lists ⟨.ofSchema s, overrides, namesAlone⟩, ∀ p ∈ list, p.2 ≠ [] :=
    ne_nil_of_mem_lists hoverrides
  constructor
  · rw [isSome_match?_iff hlists, isSome_match?_iff hlists, h]
  · intro hf hg
    exact hf.match?_eq hg hlists h

/-- Two properties whose local names differ by their case. -/
def titles : Schema where
  includeDublinCore := false
  vocabularies := [⟨"dcterms", "Dublin Core", [⟨some (.number 1), "title", "Title"⟩]⟩,
    ⟨"ex", "Example", [⟨some (.number 2), "Title", "Heading"⟩]⟩]
  customVocabularies := []
  datatypes := []

theorem match?_lower_title :
    match? ⟨.ofSchema titles, [("Main title", "ex:Title")], true⟩ "TITLE" =
      some ("dcterms:title" : Text) ∧
    match? ⟨.ofSchema titles, [("Main title", "ex:Title")], true⟩ "tITLE" =
      some ("dcterms:title" : Text) := by
  have hoverrides : ∀ p ∈ ([("Main title", "ex:Title")] : Pairs Text Text), p.2 ≠ [] := by decide
  have hlower : lower (cleanName "TITLE") = lower (cleanName "tITLE") := by decide
  have hfound : match? ⟨.ofSchema titles, [("Main title", "ex:Title")], true⟩ "TITLE" =
      some ("dcterms:title" : Text) := by decide +kernel
  obtain ⟨hknown, hsame⟩ := match?_lower titles hoverrides true hlower
  have hboth := hsame
    (foundLowered_of_not_written (by rw [hfound]; rfl) (by decide +kernel))
    (foundLowered_of_not_written (hknown.1 (by rw [hfound]; rfl)) (by decide +kernel))
  obtain ⟨term, hterm, hterm'⟩ := hboth
  obtain rfl := Option.some.inj (hterm.symm.trans hfound)
  exact ⟨hterm, hterm'⟩

/-- As they are written, the names stand for different properties. -/
example : (match? ⟨.ofSchema titles, [], true⟩ "title", match? ⟨.ofSchema titles, [], true⟩ "Title")
    = (some ("dcterms:title" : Text), some ("ex:Title" : Text)) := by decide +kernel

end

end FieldMatcher
end Crosswalk
