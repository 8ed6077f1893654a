import Crosswalk.Proofs.Destination.Options

/-!
# Languages

A language tag has subtags of letters and digits, the first one of letters, joined by hyphens. A
descriptor with such a tag is read if and only if the last subtag is of letters too:

    isLanguage t.text = t.last.all isAsciiLetter                                     (isLanguage_tag)

and then the language is the tag (`resolve_tagged`). No option leaves any other text as a language
(`Options.Tagged`).
-/

namespace Crosswalk

open Text

/-! ## Tags -/

structure Tag where
  first : Text
  more : List Text
  first_ne : first ≠ []
  first_letters : ∀ c ∈ first, isAsciiLetter c = true
  more_ne : ∀ w ∈ more, w ≠ []
  more_parts : ∀ w ∈ more, ∀ c ∈ w, isAsciiLetter c = true ∨ isAsciiDigit c = true

namespace Tag

variable (t : Tag)

def subtags : List Text := t.first :: t.more

def text : Text := joinWith ['-'] t.subtags

def last : Text := t.subtags.getLast (List.cons_ne_nil _ _)

theorem subtags_ne : ∀ w ∈ t.subtags, w ≠ [] :=
  List.forall_mem_cons.2 ⟨t.first_ne, t.more_ne⟩

theorem subtags_parts :
    ∀ w ∈ t.subtags, ∀ c ∈ w, isAsciiLetter c = true ∨ isAsciiDigit c = true :=
  List.forall_mem_cons.2 ⟨fun c hc => .inl (t.first_letters c hc), t.more_parts⟩

theorem isTagPart_text : ∀ c ∈ t.text, isTagPart c = true := by
  intro c hc
  rw [isTagPart, Bool.or_eq_true, Bool.or_eq_true, beq_iff_eq]
  rcases mem_joinWith hc with h | ⟨w, hw, hc⟩
  · exact .inr h
  · exact .inl (t.subtags_parts w hw c hc)

theorem cutsAt_text : cutsAt (· == '-') t.text = t.subtags := by
  have hmarks : ∀ w ∈ t.subtags, ∀ c ∈ w, (c == '-') = false := by
    intro w hw c hc
    rw [beq_eq_false_iff_ne]
    rintro rfl
    exact absurd (t.subtags_parts w hw _ hc) (by decide)
  exact cutsAt_joinWith (by decide) (List.cons_ne_nil _ _) hmarks

theorem text_ne : t.text ≠ [] := by
  intro h
  have hsubtags := t.cutsAt_text
  rw [h] at hsubtags
  exact t.first_ne (List.cons.inj hsubtags).1.symm

theorem isLanguage_tag : isLanguage t.text = t.last.all isAsciiLetter := by
  have hsubtags : (t.subtags.all fun w =>
      w != [] && w.all fun c => isAsciiLetter c || isAsciiDigit c) = true := by
    rw [List.all_eq_true]
    intro w hw
    rw [Bool.and_eq_true, bne_iff_ne, List.all_eq_true]
    refine ⟨t.subtags_ne w hw, fun c hc => ?_⟩
    rw [Bool.or_eq_true]
    exact t.subtags_parts w hw c hc
  have hlast : t.subtags.getLast? = some t.last := List.getLast?_eq_some_getLast _
  unfold isLanguage
  simp only [cutsAt_text, hsubtags, Bool.true_and, hlast, Option.any_some]

end Tag

/-! ## Languages among the options -/

namespace Options

variable {o o' : Options} {os : List (OptionMark × Text)}

/-- The language is a tag. -/
def Tagged (o : Options) : Prop := ∀ s ∈ o.language, isLanguage s = true

theorem Tagged.add? (h : o.Tagged) {a : OptionMark × Text} (ha : o.add? a = some o') :
    o'.Tagged := by
  obtain ⟨m, s⟩ := a
  cases m with
  | datatype =>
    obtain ⟨v, hv⟩ := exists_datatypes s
    rw [hv] at ha
    obtain ⟨_, -, rfl⟩ := Option.map_eq_some_iff.1 ha
    exact h
  | visibility =>
    obtain ⟨v, hv⟩ := exists_visibility s
    rw [hv] at ha
    obtain ⟨_, -, rfl⟩ := Option.map_eq_some_iff.1 ha
    exact h
  | language =>
    by_cases hs : s = [] ∨ isLanguage s = true
    · have hadd : o.add? (.language, s) = some { o with language := nonBlank s } := if_pos hs
      obtain rfl := Option.some.inj (hadd.symm.trans ha)
      intro t ht
      by_cases hnil : s = []
      · simp [nonBlank, hnil] at ht
      · obtain rfl : s = t := by simpa [nonBlank, hnil] using ht
        exact hs.resolve_left hnil
    · have hadd : o.add? (.language, s) = .none := if_neg hs
      rw [hadd] at ha
      cases ha

theorem tagged_foldlM (h : o.Tagged) (hread : os.foldlM Options.add? o = some o') : o'.Tagged := by
  induction os generalizing o with
  | nil =>
    obtain rfl := Option.some.inj hread
    exact h
  | cons a os ih =>
    rw [List.foldlM_cons] at hread
    obtain ⟨o₁, hadd, hrest⟩ := Option.bind_eq_some_iff.1 hread
    exact ih (h.add? hadd) hrest

theorem tagged_read? (h : Options.read? os = some o) : o.Tagged :=
  tagged_foldlM (fun _ hs => by cases hs) h

end Options

namespace Resolver

variable {r : Resolver} {text : Text}

theorem tagged_readHead? {head field : Text} {o : Options}
    (h : readHead? head = some (field, o)) : o.Tagged := by
  obtain ⟨cut, -, hcut⟩ := Option.bind_eq_some_iff.1 h
  split at hcut
  · obtain ⟨_, hread, ho⟩ := Option.map_eq_some_iff.1 hcut
    obtain ⟨-, rfl⟩ := Prod.mk.inj ho
    exact Options.tagged_read? hread
  · cases hcut

/-- What is read as a language is a tag. -/
theorem isLanguage_resolve {d : Descriptor} (h : r.resolve text = .ok (some d)) :
    ∀ s ∈ d.destination.language, isLanguage s = true := by
  obtain ⟨field, o, hhead, hbuild, -⟩ := resolve_eq_some_iff.1 h
  obtain ⟨term, -, hdestination⟩ := map_eq_ok.1 hbuild
  rw [← hdestination]
  intro s hs
  obtain ⟨t, ht, hst⟩ := Option.bind_eq_some_iff.1 hs
  have htag := tagged_readHead? hhead t ht
  rw [nonBlank, if_neg (isLanguage_parts htag).1] at hst
  exact Option.some.inj hst ▸ htag

/-! ## Descriptors with a tag -/

section

variable {field term : Text} (t : Tag)

def taggedText (field : Text) (t : Tag) : Text := field ++ (" @" : Text) ++ t.text

theorem readHead?_tagged (hfield : isField field = true) :
    readHead? (taggedText field t) =
      if t.last.all isAsciiLetter then some (collapse field, ⟨some t.text, [], none⟩)
      else none := by
  have hparts : ∀ c ∈ t.text, isOptionPart c = true := fun c hc =>
    isOptionPart_of_isTagPart (t.isTagPart_text c hc)
  have hcollapse : collapse t.text = t.text :=
    collapse_solid fun c hc => not_isBlank_of_isOptionPart (hparts c hc)
  have houtside : ∀ c ∈ Quote.outside none (collapse t.text), c ∉ optionMarks := by
    have hmarks : ∀ c ∈ optionMarks, c ∈ marks := forall_mem_of_all (by decide)
    rw [hcollapse]
    intro c hc hmark
    exact not_mem_marks (hparts c (outside_subset hc)) (hmarks c hmark)
  have htext : taggedText field t = field ++ ([' '] ++ OptionMark.language.text ++ t.text) := by
    simp [taggedText, OptionMark.text]
  have hadd : Options.none.add? (.language, t.text) =
      if t.last.all isAsciiLetter then some ⟨some t.text, [], none⟩ else none := by
    simp [Options.add?, t.text_ne, t.isLanguage_tag, nonBlank, Options.none]
  rw [htext, readHead?_option (List.forall_mem_singleton.2 (by decide)) (whole_of_isField hfield)
    .language houtside, if_pos (isField_collapse hfield), hcollapse, hadd]
  split <;> rfl

theorem trim_taggedText (hfield : isField field = true) :
    trim (taggedText field t) = taggedText field t := by
  have hend : Trimmed isBlank t.text := .of_forall fun c hc =>
    not_isBlank_of_isOptionPart (isOptionPart_of_isTagPart (t.isTagPart_text c hc))
  exact trim_field_append hfield _ hend t.text_ne

theorem tilde_not_mem_tagged (hfield : isField field = true) : '~' ∉ taggedText field t := by
  intro h
  rcases List.mem_append.1 h with h | h
  · rcases List.mem_append.1 h with h | h
    · exact (isField_iff.1 hfield).2 '~' h (by decide)
    · exact absurd h (by decide)
  · exact absurd (t.isTagPart_text '~' h) (by decide)

/-- What a field with a language stands for. -/
def taggedDescriptor (r : Resolver) (field term : Text) (t : Tag) : Descriptor where
  destination :=
    { field := term
      propertyId := r.register.propertyId (FieldMatcher.canonicalTerm term)
      datatypes := []
      language := some t.text
      visibility := none
      written := some (taggedText field t) }
  pattern := none

/-- **Languages.** A tag is read if and only if its last subtag is of letters, and no other text
than letters, digits and hyphens is read as a language. -/
theorem resolve_tagged (r : Resolver) (hfield : isField field = true)
    (hterm : r.resolveField (cleanName field) = .ok term) (t : Tag) :
    r.resolve (taggedText field t) =
      (if t.last.all isAsciiLetter then .ok (some (taggedDescriptor r field term t))
        else .ok none) ∧
    ∀ text d, r.resolve text = .ok (some d) → ∀ s ∈ d.destination.language, ∀ c ∈ s,
      isAsciiLetter c = true ∨ isAsciiDigit c = true ∨ c = '-' := by
  constructor
  · rw [r.resolve_plain fun h => tilde_not_mem_tagged t hfield (outside_subset h),
      readHead?_tagged t hfield, trim_taggedText t hfield]
    by_cases hlast : t.last.all isAsciiLetter = true
    · have hbuilt : r.build (collapse field) [] (some t.text) none (some (taggedText field t)) =
          .ok (taggedDescriptor r field term t).destination := by
        rw [build, cleanName_congr (words_collapse field), hterm]
        simp [Except.map, taggedDescriptor, nonBlank, t.text_ne, Datatypes.canonicalize, distinct]
      rw [if_pos hlast, if_pos hlast]
      simp only [hbuilt]
      rfl
    · rw [if_neg hlast, if_neg hlast]
  · intro text d h s hs c hc
    have hpart := isTagPart_of_isLanguage (isLanguage_resolve h s hs) c hc
    simpa only [isTagPart, Bool.or_eq_true, beq_iff_eq, or_assoc] using hpart

end

/-- Serbian in Latin letters, of a variant with a number inside. -/
def latinTag : Tag where
  first := "sr"
  more := ["Latn", "x2", "ekavsk"]
  first_ne := by decide
  first_letters := forall_mem_of_all (by decide)
  more_ne := by decide
  more_parts := List.forall_mem_cons.2 ⟨forall_mem_of_all (by decide),
    List.forall_mem_cons.2 ⟨forall_mem_of_all (by decide),
      List.forall_mem_singleton.2 (forall_mem_of_all (by decide))⟩⟩

/-- Spanish of a region, which has a number. -/
def regionTag : Tag where
  first := "es"
  more := ["419"]
  first_ne := by decide
  first_letters := forall_mem_of_all (by decide)
  more_ne := by decide
  more_parts := List.forall_mem_singleton.2 (forall_mem_of_all (by decide))

theorem resolve_tagged_latin :
    (resolve ⟨.dublinCoreAlone, true, [("Title", "dcterms:title")]⟩
        "Title @sr-Latn-x2-ekavsk").map
        (Option.map fun d => (d.destination.field, d.destination.language)) =
      .ok (some ("dcterms:title", some ("sr-Latn-x2-ekavsk" : Text))) := by
  have hfield : isField ("Title" : Text) = true := by decide
  have hterm : resolveField ⟨.dublinCoreAlone, true, [("Title", "dcterms:title")]⟩
      (cleanName "Title") = .ok "dcterms:title" := by decide +kernel
  have htext : ("Title @sr-Latn-x2-ekavsk" : Text) = taggedText "Title" latinTag := by decide
  have hlast : latinTag.last.all isAsciiLetter = true := by decide
  have hresolve := (resolve_tagged _ hfield hterm latinTag).1
  rw [htext, hresolve, if_pos hlast]
  rfl

/-- A tag that ends in a number makes the whole descriptor none. -/
theorem region_lost :
    taggedText "dcterms:title" regionTag = "dcterms:title @es-419" ∧
    resolve ⟨.dublinCoreAlone, false, []⟩ "dcterms:title" ≠ .ok none ∧
    resolve ⟨.dublinCoreAlone, false, []⟩ "dcterms:title @es-419" = .ok none := by
  decide +kernel

end Resolver
end Crosswalk
