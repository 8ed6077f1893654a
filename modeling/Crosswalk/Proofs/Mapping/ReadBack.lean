import Crosswalk.Proofs.Destination.Options
import Crosswalk.Proofs.Mapping.Dialects

/-!
# Reading a printed descriptor back

A map keeps the descriptor of its destination, which is printed with an option for each datatype,
while a descriptor is read with one option for all datatypes, the last one of them:

    r.resolve (d.write []) = r.build d.field d.datatypes.getLast? ..                (resolve_write)
    r.resolve (d.write []) = .ok none              beyond three options, or with a name that is none

So a destination is read back if and only if it has at most one datatype, and reading its field and
its datatype gives them once more (`resolve_ofMap`).
-/

namespace Crosswalk

open Text

/-! ## Printed destinations -/

/-- A datatype that stays in one piece in a descriptor, whether it is read there or not. -/
structure Inline (t : Text) : Prop where
  ne_nil : t ≠ []
  single : ';' ∉ t
  collapsed : collapse t = t
  unmarked : ∀ c ∈ t, isQuoteMark c = false ∧ c ∉ ("@§^~" : Text)

/-- The field, the datatypes and the language may stand in a descriptor. -/
structure Legible (d : Destination) : Prop where
  field : isField d.field = true
  datatypes : ∀ t ∈ d.datatypes, Inline t
  language : ∀ s ∈ d.language, isLanguage s = true

namespace Destination

variable {d : Destination}

/-- The options that a destination is printed with. -/
def options (d : Destination) : List (OptionMark × Text) :=
  d.datatypes.map (fun t => (OptionMark.datatype, t)) ++
    (d.language.map fun s => (OptionMark.language, s)).toList ++
    (d.visibility.map fun v => (OptionMark.visibility, v.text)).toList

theorem write_eq (d : Destination) : d.write [] = d.field ++ optionTail [' '] d.options := by
  obtain ⟨field, id, datatypes, language, visibility, written⟩ := d
  have hdatatypes : datatypes.flatMap (fun t => (" ^^" : Text) ++ t) =
      optionTail [' '] (datatypes.map fun t => (OptionMark.datatype, t)) := by
    rw [optionTail, List.flatMap_map]
    rfl
  unfold write options
  simp only [hdatatypes, optionTail, List.flatMap_append, if_true, List.append_nil,
    List.append_assoc]
  cases language <;> cases visibility <;>
    simp [optionText, OptionMark.text]

/-- No option has quotes or marks, and all of them are collapsed. -/
theorem options_parts (h : Legible d) : ∀ o ∈ d.options,
    (∀ c ∈ o.2, isQuoteMark c = false ∧ c ∉ ("@§^~" : Text)) ∧ collapse o.2 = o.2 := by
  have hparts : ∀ s : Text, (∀ c ∈ s, isOptionPart c = true) →
      (∀ c ∈ s, isQuoteMark c = false ∧ c ∉ ("@§^~" : Text)) ∧ collapse s = s := by
    intro s hs
    refine ⟨fun c hc => ?_, collapse_solid fun c hc => not_isBlank_of_isOptionPart (hs c hc)⟩
    have hmark := not_mem_marks (hs c hc)
    have hmarks : ∀ d ∈ ("@§^~" : Text), d ∈ marks := forall_mem_of_all (by decide)
    exact ⟨(ne_of_not_mem_marks hmark).1, fun hmem => hmark (hmarks c hmem)⟩
  intro o ho
  simp only [options, List.mem_append, List.mem_map, Option.mem_toList] at ho
  rcases ho with (⟨t, ht, rfl⟩ | ho) | ho
  · exact ⟨(h.datatypes t ht).unmarked, (h.datatypes t ht).collapsed⟩
  · obtain ⟨s, hs, rfl⟩ := Option.map_eq_some_iff.1 ho
    exact hparts s (isLanguage_parts (h.language s hs)).2
  · obtain ⟨v, -, rfl⟩ := Option.map_eq_some_iff.1 ho
    refine hparts v.text ?_
    cases v <;> exact forall_mem_of_all (by decide)

theorem tilde_not_mem_write (h : Legible d) : '~' ∉ d.write [] := by
  rw [write_eq, List.mem_append, optionTail, List.mem_flatMap, not_or]
  refine ⟨fun hc => (isField_iff.1 h.field).2 '~' hc (by decide), ?_⟩
  rintro ⟨o, ho, hc⟩
  have hmark : ∀ m : OptionMark, '~' ∉ [' '] ++ m.text := by
    rintro (_ | _ | _) <;> decide
  rw [optionText, ← List.append_assoc, List.mem_append] at hc
  rcases hc with hc | hc
  · exact hmark o.1 hc
  · exact ((options_parts h o ho).1 '~' hc).2 (by decide)

/-! ## Reading the options -/

theorem add?_inline {t : Text} (h : Inline t) (o : Options) :
    o.add? (.datatype, t) =
      if isDatatypeToken t then some { o with datatypes := [t] } else none := by
  have hcut : cutsAt (· == ';') t = [t] :=
    cutsAt_of_forall fun c hc => beq_false_of_ne (ne_of_mem_of_not_mem hc h.single)
  have htrim : trim t = t := by rw [← h.collapsed, trim_collapse]
  have hkept : [t].filter (· != []) = [t] :=
    List.filter_eq_self.2 (List.forall_mem_singleton.2 (bne_iff_ne.2 h.ne_nil))
  simp only [Options.add?, hcut, List.map_singleton, htrim, hkept, List.all_cons, List.all_nil,
    Bool.and_true]

/-- Every datatype takes the place of the ones before it, when all of them can be read. -/
theorem foldlM_datatypes {ts : List Text} (h : ∀ t ∈ ts, Inline t) (o : Options) :
    (ts.map fun t => (OptionMark.datatype, t)).foldlM Options.add? o =
      if ts.all isDatatypeToken then
        some { o with datatypes := ts.foldl (fun _ t => [t]) o.datatypes }
      else none := by
  induction ts generalizing o with
  | nil => rfl
  | cons t ts ih =>
    obtain ⟨ht, hts⟩ := List.forall_mem_cons.1 h
    rw [List.map_cons, List.foldlM_cons, add?_inline ht, List.all_cons]
    cases isDatatypeToken t with
    | true => exact ih hts _
    | false => rfl

theorem foldl_last (ts : List Text) : ts.foldl (fun _ t => [t]) [] = ts.getLast?.toList := by
  rcases List.eq_nil_or_concat' ts with rfl | ⟨ts, t, rfl⟩
  · rfl
  · rw [List.foldl_append, List.getLast?_append]
    rfl

theorem read?_options (h : Legible d) : Options.read? d.options =
    if d.datatypes.all isDatatypeToken then
      some ⟨d.language, d.datatypes.getLast?.toList, d.visibility⟩
    else none := by
  obtain ⟨field, id, datatypes, language, visibility, written⟩ := d
  have hlast : datatypes.foldl (fun _ t => [t]) Options.none.datatypes =
      datatypes.getLast?.toList := foldl_last datatypes
  rw [Options.read?, options, List.append_assoc, List.foldlM_append,
    foldlM_datatypes h.datatypes, hlast]
  dsimp only
  split
  · exact foldlM_behind h.language _
  · rfl

/-- **A printed destination** is read with its last datatype alone, and with no more than three
options. -/
theorem resolve_write (r : Resolver) (h : Legible d) :
    r.resolve (d.write []) =
      if d.options.length ≤ maxOptions ∧ d.datatypes.all isDatatypeToken then
        (r.build d.field d.datatypes.getLast?.toList d.language d.visibility
          (some (trim (d.write [])))).map fun d => some ⟨d, none⟩
      else .ok none := by
  have hoptions := options_parts h
  have hblank : ∀ c ∈ [' '], isBlank c = true := List.forall_mem_singleton.2 (by decide)
  have htilde : '~' ∉ Quote.outside none (d.write []) := fun hc =>
    tilde_not_mem_write h (outside_subset hc)
  have hmap : d.options.map (fun o => (o.1, collapse o.2)) = d.options := by
    rw [List.map_congr_left fun o ho => by rw [(hoptions o ho).2], List.map_id']
  have hhead : Resolver.readHead? (d.write []) =
      if d.options.length ≤ maxOptions ∧ d.datatypes.all isDatatypeToken then
        some (collapse d.field, ⟨d.language, d.datatypes.getLast?.toList, d.visibility⟩)
      else none := by
    rw [write_eq, readHead?_options hblank (whole_of_isField h.field) fun o ho =>
      (shielded_of_unquoted (hoptions o ho).1).whole, hmap, read?_options h,
      isField_collapse h.field, ite_and]
    simp only [Bool.true_and, decide_eq_true_eq]
    split
    · split <;> rfl
    · rfl
  rw [r.resolve_plain htilde, hhead]
  by_cases hread : d.options.length ≤ maxOptions ∧ d.datatypes.all isDatatypeToken = true
  · rw [if_pos hread, if_pos hread]
    simp only [r.build_congr (words_collapse d.field) rfl]
  · rw [if_neg hread, if_neg hread]

/-! ## What is read back -/

theorem length_options_le (h : d.datatypes.length ≤ 1) : d.options.length ≤ maxOptions := by
  have hlanguage : (d.language.map fun s => (OptionMark.language, s)).toList.length ≤ 1 := by
    cases d.language <;> simp
  have hvisibility :
      (d.visibility.map fun v => (OptionMark.visibility, v.text)).toList.length ≤ 1 := by
    cases d.visibility <;> simp
  rw [options, List.length_append, List.length_append, List.length_map, maxOptions]
  omega

end Destination

theorem Datatypes.canonicalize_toList (names : Datatypes) (t : Option Text) :
    names.canonicalize t.toList = (t.bind names.canonical).toList := by
  cases t with
  | none => rfl
  | some t =>
    rw [canonicalize, Option.toList_some, List.filterMap_cons, Option.bind_some]
    cases names.canonical t <;> rfl

/-- The last datatype stands for all of them when there is no other. -/
theorem canonicalize_getLast_iff (names : Datatypes) (ts : List Text) :
    names.canonicalize ts.getLast?.toList = ts ↔
      ts.length ≤ 1 ∧ ∀ t ∈ ts, names.canonical t = some t := by
  rw [names.canonicalize_toList]
  constructor
  · intro h
    have hlength : ts.length ≤ 1 := by
      rw [← h]
      cases ts.getLast?.bind names.canonical <;> simp
    refine ⟨hlength, fun t ht => ?_⟩
    obtain ⟨u, rfl⟩ := List.length_eq_one_iff.1
      (Nat.le_antisymm hlength (List.length_pos_of_mem ht))
    obtain rfl := List.mem_singleton.1 ht
    simpa [Option.toList_eq_singleton_iff] using h
  · rintro ⟨hlength, hcanonical⟩
    match ts, hlength with
    | [], _ => rfl
    | [t], _ =>
      have ht := hcanonical t (List.mem_singleton_self t)
      simp [ht]

namespace Resolver

variable {r : Resolver}

/-- What a field with its options is built to. -/
theorem build_eq_ok {field : Text} {datatypes : List Text} {language : Option Text}
    {visibility : Option Visibility} {written : Option Text} {d : Destination} :
    r.build field datatypes language visibility written = .ok d ↔
      ∃ term, r.resolveField (cleanName field) = .ok term ∧
        d = ⟨term, r.register.propertyId (FieldMatcher.canonicalTerm term),
          r.datatypes.canonicalize datatypes, language.bind nonBlank, visibility, written⟩ := by
  rw [build, map_eq_ok]
  exact exists_congr fun term => and_congr_right fun _ => eq_comm

/-- Without checking, a clean name is resolved to itself. -/
theorem resolveField_cleanName (h : r.checkField = false) (field : Text) :
    r.resolveField (cleanName (cleanName field)) = .ok (cleanName field) := by
  simp [resolveField, h, cleanName_cleanName]

end Resolver

/-- The destination of a map without modifier, which keeps what it is printed as. -/
theorem exists_build_of_ofMap {r : Resolver} {index : Nat} {element : Xml.Node} {x : Rule}
    (hrule : Entry.ofMap r index element = .rule x) (hmod : element.child? "mod" = none) :
    ∃ field term, r.resolveField (cleanName field) = .ok term ∧ x.destination.field = term ∧
      x.destination.propertyId = r.register.propertyId (FieldMatcher.canonicalTerm term) ∧
      x.destination.written = some (x.destination.write []) := by
  unfold Entry.ofMap at hrule
  split at hrule
  · cases hrule
  · next source _ =>
    split at hrule
    · next target c field hto hfield =>
      dsimp only at hrule
      split at hrule
      · next d hd =>
        obtain rfl := Entry.rule.inj hrule
        obtain ⟨built, hbuilt, rfl⟩ := map_eq_ok.1 hd
        obtain ⟨term, hterm, rfl⟩ := Resolver.build_eq_ok.1 hbuilt
        rw [hmod]
        exact ⟨c :: field, term, hterm, rfl, rfl, rfl⟩
      · cases hrule
    · cases hrule

/-- **The descriptor of a map** is read with its last datatype alone, and not at all with more than
three options or a datatype that is none in a descriptor. So it is read back if and only if the map
has at most one datatype, and the field and the datatype stand for themselves; without checking
every field does. -/
theorem resolve_ofMap {r : Resolver} {index : Nat} {element : Xml.Node} {x : Rule}
    (hrule : Entry.ofMap r index element = .rule x) (hmod : element.child? "mod" = none)
    (h : Legible x.destination) :
    ∃ text, x.destination.written = some text ∧
      (r.resolve text =
        if x.destination.options.length ≤ maxOptions ∧
            x.destination.datatypes.all isDatatypeToken then
          (r.build x.destination.field x.destination.datatypes.getLast?.toList
            x.destination.language x.destination.visibility (some (trim text))).map fun d =>
              some ⟨d, none⟩
        else .ok none) ∧
      ((r.resolve text).map (Option.map Descriptor.unwritten) =
          .ok (some ⟨{ x.destination with written := none }, none⟩) ↔
        x.destination.datatypes.length ≤ 1 ∧
          r.resolveField (cleanName x.destination.field) = .ok x.destination.field ∧
          ∀ t ∈ x.destination.datatypes,
            isDatatypeToken t = true ∧ r.datatypes.canonical t = some t) ∧
      (r.checkField = false →
        r.resolveField (cleanName x.destination.field) = .ok x.destination.field) := by
  obtain ⟨field, term, hterm, hfield, hproperty, hwritten⟩ := exists_build_of_ofMap hrule hmod
  have hresolve := Destination.resolve_write r h
  refine ⟨_, hwritten, hresolve, ?_, fun hcheck => ?_⟩
  · have hlanguage : x.destination.language.bind nonBlank = x.destination.language := by
      cases hl : x.destination.language with
      | none => rfl
      | some s => exact if_neg (isLanguage_parts (h.language s hl)).1
    rw [hresolve]
    constructor
    · intro hread
      split at hread
      · next hcan =>
        have htokens := List.all_eq_true.1 hcan.2
        obtain ⟨_, hsome, hdescriptor⟩ := map_eq_ok.1 hread
        obtain ⟨_, hbuilt, rfl⟩ := map_eq_ok.1 hsome
        obtain ⟨term', hterm', rfl⟩ := Resolver.build_eq_ok.1 hbuilt
        have hdestination := congrArg Descriptor.destination (Option.some.inj hdescriptor)
        have hself : term' = x.destination.field := congrArg Destination.field hdestination
        have hdatatypes : r.datatypes.canonicalize x.destination.datatypes.getLast?.toList =
            x.destination.datatypes := congrArg Destination.datatypes hdestination
        obtain ⟨hlength, hcanonical⟩ := (canonicalize_getLast_iff _ _).1 hdatatypes
        rw [hself] at hterm'
        exact ⟨hlength, hterm', fun t ht => ⟨htokens t ht, hcanonical t ht⟩⟩
      · cases hread
    · rintro ⟨hlength, hself, hnames⟩
      have htokens := List.all_eq_true.2 fun t ht => (hnames t ht).1
      have hdatatypes := (canonicalize_getLast_iff _ _).2 ⟨hlength, fun t ht => (hnames t ht).2⟩
      rw [if_pos ⟨Destination.length_options_le hlength, htokens⟩,
        Resolver.build_eq_ok.2 ⟨x.destination.field, hself, rfl⟩, hdatatypes, hlanguage, hfield,
        ← hproperty, ← hfield]
      rfl
  · have hclean : cleanName field = term := by
      simpa [Resolver.resolveField, hcheck] using hterm
    rw [hfield, ← hclean]
    exact Resolver.resolveField_cleanName hcheck field

/-- A map from a path to a title. -/
def titleMap (attributes : List (Text × Text)) : Xml.Node :=
  plainElement "map" [] [plainElement "from" [("jsdot", "t")] [],
    plainElement "to" (("field", "dcterms:title") :: attributes) []]

/-- A title with an option of each kind. -/
def titleRule : Rule where
  source := some ⟨.jsdot, "t"⟩
  destination := ⟨"dcterms:title", some (.number 1), ["literal"], some "fra", some .hidden,
    some "dcterms:title ^^literal @fra §private"⟩
  modifier := .empty

theorem resolve_ofMap_title :
    Entry.ofMap ⟨.dublinCoreAlone, false, []⟩ 1
        (titleMap [("datatype", "literal"), ("language", "fra"), ("visibility", "private")]) =
      .rule titleRule ∧
    (Resolver.resolve ⟨.dublinCoreAlone, false, []⟩
        "dcterms:title ^^literal @fra §private").map (Option.map Descriptor.unwritten) =
      .ok (some ⟨{ titleRule.destination with written := none }, none⟩) := by
  have hrule : Entry.ofMap ⟨.dublinCoreAlone, false, []⟩ 1
      (titleMap [("datatype", "literal"), ("language", "fra"), ("visibility", "private")]) =
        .rule titleRule := by decide +kernel
  have hlegible : Legible titleRule.destination := by
    refine ⟨by decide, List.forall_mem_singleton.2 ⟨by decide, by decide, by decide, ?_⟩,
      by decide⟩
    exact forall_mem_of_all (by decide)
  obtain ⟨text, hwritten, -, hiff, -⟩ := resolve_ofMap hrule rfl hlegible
  obtain rfl : ("dcterms:title ^^literal @fra §private" : Text) = text := Option.some.inj hwritten
  have hcanonical : Datatypes.canonical (Resolver.datatypes ⟨.dublinCoreAlone, false, []⟩)
      "literal" = some ("literal" : Text) := by decide +kernel
  have hfield : Resolver.resolveField ⟨.dublinCoreAlone, false, []⟩ (cleanName "dcterms:title") =
      .ok "dcterms:title" := by decide +kernel
  exact ⟨hrule, hiff.2 ⟨by decide, hfield, List.forall_mem_singleton.2 ⟨by decide, hcanonical⟩⟩⟩

/-- Of two datatypes the first one is lost. -/
theorem first_datatype_lost :
    (Entry.ofMap ⟨.dublinCoreAlone, false, []⟩ 1 (titleMap [("datatype", "literal uri")])).rule?.map
        (fun x => (x.destination.datatypes, x.destination.written)) =
      some ([("literal" : Text), "uri"], some ("dcterms:title ^^literal ^^uri" : Text)) ∧
    (Resolver.resolve ⟨.dublinCoreAlone, false, []⟩ "dcterms:title ^^literal ^^uri").map
        (Option.map fun d => d.destination.datatypes) =
      .ok (some [("uri" : Text)]) := by
  decide +kernel

end Crosswalk
