import Crosswalk.Proofs.Destination.Field
import Crosswalk.Proofs.Destination.Options

/-!
# Checked fields

With checking and without override table, the field of a descriptor is a term that the vocabularies
declare, with the identifier of its last declaration (`Declares`):

    (checked s).resolve text = .ok (some d) →
      Declares s d.destination.field d.destination.propertyId                    (resolve_checked)

unless a vocabulary has the short name `dc`: its terms are read as terms of `dcterms`, whether these
are declared or not.
-/

namespace Crosswalk

open Text

/-! ## Declarations -/

section

variable {s : Schema} {term : Text} {id : Option Identifier}

/-- The last declaration of a term gives it this identifier. -/
def Declares (s : Schema) (term : Text) (id : Option Identifier) : Prop :=
  ∃ before p after, Register.properties s = before ++ p :: after ∧ p.1.term p.2 = term ∧
    p.2.id = id ∧ ∀ q ∈ after, q.1.term q.2 ≠ term

theorem get?_ids_eq_some_iff :
    Pairs.get? term (Register.ofSchema s).ids = some id ↔ Declares s term id := by
  rw [Register.ofSchema, Pairs.get?_ofList_eq_some_iff]
  constructor
  · rintro ⟨x, y, hsplit, hy⟩
    obtain ⟨before, rest, hs, -, hrest⟩ := List.map_eq_append_iff.1 hsplit
    obtain ⟨p, after, rfl, hp, hafter⟩ := List.map_eq_cons_iff.1 hrest
    obtain ⟨hterm, hid⟩ := Prod.mk.inj hp
    refine ⟨before, p, after, hs, hterm, hid, fun q hq hterm => hy ?_⟩
    rw [← hafter, ← hterm]
    exact List.mem_map_of_mem (List.mem_map_of_mem hq)
  · rintro ⟨before, p, after, hs, rfl, rfl, hafter⟩
    refine ⟨_, _, by rw [hs, List.map_append, List.map_cons], fun hmem => ?_⟩
    obtain ⟨_, hpair, hterm⟩ := List.mem_map.1 hmem
    obtain ⟨q, hq, rfl⟩ := List.mem_map.1 hpair
    exact hafter q hq hterm

theorem exists_declares_iff :
    (∃ id, Declares s term id) ↔ term ∈ Pairs.keys (Register.ofSchema s).terms := by
  have hkeys : Pairs.keys (Register.ofSchema s).terms = Pairs.keys (Register.ofSchema s).ids := by
    rw [Register.ofSchema, Pairs.keys_ofList, Pairs.keys_ofList, List.map_map, List.map_map]
    rfl
  rw [hkeys, ← Pairs.get?_isSome, Option.isSome_iff_exists]
  simp only [get?_ids_eq_some_iff]

theorem propertyId_of_declares (h : Declares s term id) :
    (Register.ofSchema s).propertyId term = id := by
  rw [Register.propertyId, get?_ids_eq_some_iff.2 h]
  rfl

theorem propertyId_of_not_declares (h : ∀ id, ¬Declares s term id) :
    (Register.ofSchema s).propertyId term = none := by
  have hnone : Pairs.get? term (Register.ofSchema s).ids = none :=
    Option.eq_none_iff_forall_ne_some.2 fun id hid => h id (get?_ids_eq_some_iff.1 hid)
  rw [Register.propertyId, hnone]
  rfl

end

/-! ## Terms that are found -/

namespace FieldMatcher

variable {s : Schema} {field term : Text}

/-- The matcher of a schema without override table. -/
def ofSchema (s : Schema) : FieldMatcher := ⟨.ofSchema s, [], true⟩

/-- A term that is found is declared, or stands for a declared one under the short name. -/
theorem term_of_match? (h : (ofSchema s).match? field = some term) :
    canonicalTerm term = term ∧
      (term ∈ Pairs.keys (Register.ofSchema s).terms ∨
        ∃ localName, term = longMark ++ localName ∧
          shortMark ++ localName ∈ Pairs.keys (Register.ofSchema s).terms) := by
  obtain ⟨list, hlist, hsearch⟩ := List.exists_of_findSome?_eq_some h
  obtain ⟨p, hp, rfl⟩ := mem_of_search hsearch
  rcases term_of_mem_lists hlist hp with ⟨_, hnone, -⟩ | ⟨name, hname, hterm⟩
  · cases hnone
  · rw [hterm]
    refine ⟨canonicalTerm_canonicalTerm name, ?_⟩
    rcases mem_keys_names.1 hname with hmem | ⟨localName, hmem, rfl⟩
    · rcases canonicalTerm_cases name with ⟨localName, rfl, hcanonical⟩ | ⟨-, hcanonical⟩
      · exact .inr ⟨localName, hcanonical, hmem⟩
      · rw [hcanonical]
        exact .inl hmem
    · rw [canonicalTerm_short]
      exact .inl hmem

/-- A declared term is found by itself. -/
theorem match?_term (hterm : term ∈ Pairs.keys (Register.ofSchema s).terms)
    (hclean : cleanName term = term) : (ofSchema s).match? term = some (canonicalTerm term) := by
  have hname : term ∈ Pairs.keys (names (Register.ofSchema s)) := mem_keys_names.2 (.inl hterm)
  have hoverrides : search term (ofSchema s).cleanOverrides = none := rfl
  have hfound : search term (byName (.ofSchema s)) = some (canonicalTerm term) := by
    have hget : Pairs.get? term (byName (.ofSchema s)) = some (canonicalTerm term) := by
      rw [byName, Pairs.get?_map_key, if_pos hname]
    have hne := canonicalTerm_ne_nil (ne_nil_of_mem_names hname)
    simp [search, lookup, hget, hne]
  have hlists : ∃ more, (ofSchema s).lists =
      (ofSchema s).cleanOverrides :: byName (.ofSchema s) :: more := ⟨_, rfl⟩
  obtain ⟨more, hlists⟩ := hlists
  rw [match?_eq, hclean, hlists, List.findSome?_cons, hoverrides, List.findSome?_cons, hfound]

end FieldMatcher

/-! ## Descriptors -/

namespace Resolver

open FieldMatcher

variable {s : Schema} {text field term : Text} {d : Descriptor}

/-- The resolver that checks fields, without override table. -/
def checked (s : Schema) : Resolver := ⟨.ofSchema s, true, []⟩

theorem resolveField_checked :
    (checked s).resolveField field = .ok term ↔
      (FieldMatcher.ofSchema s).match? field = some term := by
  have hchecks : (checked s).checkField = true := rfl
  have hmatcher : (checked s).matcher = FieldMatcher.ofSchema s := rfl
  rw [resolveField, if_pos hchecks, hmatcher]
  cases (FieldMatcher.ofSchema s).match? field <;> simp

theorem build_of_resolve {r : Resolver} (h : r.resolve text = .ok (some d)) :
    ∃ field, r.resolveField (cleanName field) = .ok d.destination.field ∧
      d.destination.propertyId = r.register.propertyId (canonicalTerm d.destination.field) := by
  obtain ⟨field, o, -, hbuild, -⟩ := resolve_eq_some_iff.1 h
  obtain ⟨term, hterm, hdestination⟩ := map_eq_ok.1 hbuild
  rw [← hdestination]
  exact ⟨field, hterm, rfl⟩

/-- A term that stands alone. -/
def termDescriptor (s : Schema) (term : Text) : Descriptor where
  destination :=
    { field := canonicalTerm term
      propertyId := (Register.ofSchema s).propertyId (canonicalTerm term)
      datatypes := []
      language := none
      visibility := none
      written := some term }
  pattern := none

theorem resolve_term (hterm : term ∈ Pairs.keys (Register.ofSchema s).terms)
    (hfield : isField term = true) (hsolid : ∀ c ∈ term, isBlank c = false) :
    (checked s).resolve term = .ok (some (termDescriptor s term)) := by
  have htilde : '~' ∉ Quote.outside none term := fun h =>
    (isField_iff.1 hfield).2 '~' (outside_subset h) (by decide)
  have hhead : readHead? term = some (term, Options.none) := by
    have hread : readHead? (term ++ optionTail [] []) = _ :=
      readHead?_options (List.forall_mem_nil _) (whole_of_isField hfield) (List.forall_mem_nil _)
    have htail : term ++ optionTail [] [] = term := List.append_nil term
    rw [htail, collapse_solid hsolid, hfield] at hread
    exact hread
  have hbuild : (checked s).build term [] none none (some term) =
      .ok (termDescriptor s term).destination := by
    have hclean := cleanName_solid hsolid
    rw [build, hclean, resolveField_checked.2 (match?_term hterm hclean)]
    show Except.ok _ = Except.ok _
    simp only [termDescriptor, canonicalTerm_canonicalTerm]
    rfl
  rw [resolve_plain _ htilde, hhead, trim_eq_self hsolid]
  simp only [hbuild, Options.none]
  rfl

/-- **A checked field is a declared term** with its identifier, unless the term is one of `dc` that
`dcterms` does not declare. A declared term is read as itself, unless it is one of `dc`. -/
theorem resolve_checked (s : Schema) :
    (∀ text d, (checked s).resolve text = .ok (some d) →
      Declares s d.destination.field d.destination.propertyId ∨
        (∀ id, ¬Declares s d.destination.field id) ∧ d.destination.propertyId = none ∧
          ∃ localName id, d.destination.field = longMark ++ localName ∧
            Declares s (shortMark ++ localName) id) ∧
    ∀ term id, Declares s term id → isField term = true → (∀ c ∈ term, isBlank c = false) →
      (checked s).resolve term = .ok (some (termDescriptor s term)) ∧
        ((termDescriptor s term).destination.field = term ↔ startsWith shortMark term = false) := by
  constructor
  · intro text d h
    obtain ⟨field, hterm, hid⟩ := build_of_resolve h
    obtain ⟨hself, hdeclared⟩ := term_of_match? (resolveField_checked.1 hterm)
    rw [hself] at hid
    by_cases hknown : ∃ id, Declares s d.destination.field id
    · obtain ⟨id, hdeclares⟩ := hknown
      have hsame : d.destination.propertyId = id := hid.trans (propertyId_of_declares hdeclares)
      exact .inl (hsame ▸ hdeclares)
    · have hnot : ∀ id, ¬Declares s d.destination.field id := not_exists.1 hknown
      refine .inr ⟨hnot, hid.trans (propertyId_of_not_declares hnot), ?_⟩
      rcases hdeclared with hmem | ⟨localName, hlong, hmem⟩
      · exact absurd (exists_declares_iff.2 hmem) hknown
      · obtain ⟨id, hshort⟩ := exists_declares_iff.2 hmem
        exact ⟨localName, id, hlong, hshort⟩
  · intro term id hdeclares hfield hsolid
    refine ⟨resolve_term (exists_declares_iff.1 ⟨id, hdeclares⟩) hfield hsolid, ?_⟩
    show canonicalTerm term = term ↔ _
    rcases canonicalTerm_cases term with ⟨localName, rfl, hcanonical⟩ | ⟨hshort, hcanonical⟩
    · rw [hcanonical]
      have hne : longMark ++ localName ≠ shortMark ++ localName := fun h =>
        absurd (List.append_cancel_right h) (by decide)
      simp [hne, startsWith_append]
    · simp [hcanonical, hshort]

/-- A vocabulary under each of the two short names. -/
def elements : Schema where
  includeDublinCore := false
  vocabularies := [⟨"dc", "Elements", [⟨some (.number 7), "title", "Title"⟩]⟩,
    ⟨"ex", "Example", [⟨some (.number 2), "size", "Size"⟩, ⟨some (.number 3), "size", "Extent"⟩]⟩]
  customVocabularies := []
  datatypes := []

theorem resolve_checked_size :
    Declares elements "ex:size" (some (.number 3)) ∧
    (checked elements).resolve "ex:size" = .ok (some (termDescriptor elements "ex:size")) ∧
    (termDescriptor elements "ex:size").destination.field = "ex:size" ∧
    Declares elements (termDescriptor elements "ex:size").destination.field
      (termDescriptor elements "ex:size").destination.propertyId := by
  have hdeclares : Declares elements "ex:size" (some (.number 3)) :=
    ⟨[_, _], (_, ⟨some (.number 3), "size", "Extent"⟩), [], rfl, by decide, rfl, by decide⟩
  obtain ⟨hsound, hterms⟩ := resolve_checked elements
  obtain ⟨hresolve, hself⟩ :=
    hterms "ex:size" _ hdeclares (by decide) (forall_mem_of_all (by decide))
  have hfield := hself.2 (by decide)
  refine ⟨hdeclares, hresolve, hfield, ?_⟩
  rcases hsound "ex:size" _ hresolve with h | ⟨hnot, -⟩
  · exact h
  · rw [hfield] at hnot
    exact absurd hdeclares (hnot _)

/-- A term of `dc` is read as one that is not declared. -/
theorem short_term_lost :
    Declares elements "dc:title" (some (.number 7)) ∧
    ((checked elements).resolve "dc:title").map
        (Option.map fun d => (d.destination.field, d.destination.propertyId)) =
      .ok (some ("dcterms:title", none)) := by
  refine ⟨⟨[], (_, ⟨some (.number 7), "title", "Title"⟩), _, rfl, by decide, rfl, ?_⟩, ?_⟩
  · decide
  · decide +kernel

end Resolver
end Crosswalk
