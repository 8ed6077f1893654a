import Crosswalk.Proofs.Destination.Descriptor
import Crosswalk.Proofs.Outcome
import Crosswalk.Proofs.Text.Outside

/-!
# Options in any order

A descriptor is collapsed before it is cut. Cutting and collapsing commute: with texts that are not
cut themselves (`Whole`), the collapsed descriptor is cut into the collapsed parts,

    splitOptions? (collapse (field ++ optionTail gap os)) =
      some (collapse field, os.map fun o => (o.1, collapse o.2))              (splitOptions?_collapse)

whatever blanks stand before the options. An option sets its own value alone (`add?_comm`), so that
options of different kinds give the same in any order (`resolve_perm`).
-/

namespace Crosswalk

open Text

/-! ## Texts that are not cut -/

def optionMarks : Text := "@§^"

/-- Cutting at the marks leaves the text in one piece. -/
def Whole (inOption : Bool) (s : Text) : Prop :=
  ∀ u, cutMarks? none inOption (s ++ u) =
    (cutMarks? none inOption u).map fun cut => (s ++ cut.1, cut.2)

section
variable {inOption : Bool} {s t gap : Text}

theorem Whole.append (hs : Whole inOption s) (ht : Whole inOption t) : Whole inOption (s ++ t) := by
  intro u
  rw [List.append_assoc, hs, ht, Option.map_map]
  simp only [Function.comp_def, List.append_assoc]

/-- The last part of a descriptor ends with it. -/
theorem Whole.cutMarks? (hs : Whole inOption s) : cutMarks? none inOption s = some (s, []) := by
  have h := hs []
  rw [List.append_nil] at h
  rw [h]
  simp [Crosswalk.cutMarks?]

theorem ne_of_not_mem_optionMarks {c : Char} (h : c ∉ optionMarks) :
    c ≠ '@' ∧ c ≠ '§' ∧ c ≠ '^' := by
  have hne : ∀ d ∈ optionMarks, c ≠ d := by
    rintro d hd rfl
    exact h hd
  exact ⟨hne '@' (by decide), hne '§' (by decide), hne '^' (by decide)⟩

/-- Before the first mark quotes do not count. -/
theorem whole_field (h : ∀ c ∈ s, c ∉ optionMarks) : Whole false s := by
  intro u
  induction s with
  | nil => cases hu : cutMarks? none false u <;> simp [hu]
  | cons c s ih =>
    obtain ⟨hc, hs⟩ := List.forall_mem_cons.1 h
    obtain ⟨hat, hsection, hcaret⟩ := ne_of_not_mem_optionMarks hc
    rw [List.cons_append, cutMarks?.eq_def]
    simp only [Option.isSome_none, Bool.and_false, Bool.false_eq_true, if_false, hat, hsection,
      hcaret]
    rw [ih hs, Option.map_map]
    rfl

/-- In an option, marks count outside quotes. -/
theorem cutMarks?_outside {opened : Option Char}
    (h : ∀ c ∈ Quote.outside opened s, c ∉ optionMarks) (u : Text) :
    cutMarks? opened true (s ++ u) =
      (cutMarks? (Quote.after opened s) true u).map fun cut => (s ++ cut.1, cut.2) := by
  induction s generalizing opened with
  | nil =>
    show cutMarks? opened true u = (cutMarks? opened true u).map _
    cases hu : cutMarks? opened true u <;> simp
  | cons c s ih =>
    rw [List.cons_append, cutMarks?.eq_def, Quote.after_cons]
    cases opened with
    | some q =>
      rw [outside_inside] at h
      simp only [Option.isSome_some, if_true]
      rw [ih h, Option.map_map]
      rfl
    | none =>
      cases hc : isQuoteMark c with
      | true =>
        rw [outside_open hc] at h
        have hstep : Quote.step none c = some c := if_pos hc
        simp only [Option.isSome_none, Bool.false_eq_true, if_false, hc, Bool.and_self, if_true]
        rw [ih h, Option.map_map, hstep]
        rfl
      | false =>
        rw [outside_cons hc] at h
        obtain ⟨hmark, hs⟩ := List.forall_mem_cons.1 h
        obtain ⟨hat, hsection, hcaret⟩ := ne_of_not_mem_optionMarks hmark
        simp only [Option.isSome_none, Bool.false_eq_true, if_false, hc, Bool.false_and, hat,
          hsection, hcaret]
        rw [ih hs, Option.map_map, Quote.step_of_not_mark hc]
        rfl

theorem whole_option (h : ∀ c ∈ Quote.outside none s, c ∉ optionMarks)
    (hafter : Quote.after none s = none) : Whole true s := by
  intro u
  rw [cutMarks?_outside h, hafter]

theorem whole_blank (h : ∀ c ∈ s, isBlank c = true) : Whole inOption s := by
  have hnot : ∀ c ∈ s, c ∉ optionMarks := by
    have hmarks : ∀ d ∈ optionMarks, isBlank d = false := forall_mem_of_all (by decide)
    intro c hc hmark
    have hblank := h c hc
    rw [hmarks c hmark] at hblank
    cases hblank
  cases inOption with
  | false => exact whole_field hnot
  | true =>
    have hquote := outside_unquoted fun c hc => isQuoteMark_of_isBlank (h c hc)
    exact whole_option (fun c hc => hnot c (hquote.1 ▸ hc)) hquote.2

theorem whole_of_isField (h : isField s = true) : Whole false (collapse s) := by
  have hmarks : ∀ d ∈ optionMarks, d ∈ fieldMarks := forall_mem_of_all (by decide)
  exact whole_field fun c hc hmark => (isField_iff.1 (isField_collapse h)).2 c hc (hmarks c hmark)

/-! ## Cutting what is collapsed -/

/-- Options behind a field, each with blanks before it. -/
def optionTail (gap : Text) (os : List (OptionMark × Text)) : Text :=
  os.flatMap fun o => gap ++ optionText o

theorem solid_mark (m : OptionMark) : ∀ c ∈ m.text, isBlank c = false := by
  cases m <;> exact forall_mem_of_all (by decide)

/-- Blanks around a mark do not count. -/
theorem exists_collapse_mark (s : Text) (m : OptionMark) (t : Text)
    (hgap : ∀ c ∈ gap, isBlank c = true) : ∃ x y : Text, (∀ c ∈ x, isBlank c = true) ∧
      (∀ c ∈ y, isBlank c = true) ∧
        collapse (s ++ (gap ++ m.text ++ t)) = collapse s ++ x ++ (m.text ++ (y ++ collapse t)) := by
  obtain ⟨x, hx, hleft⟩ := collapse_append s (gap ++ m.text ++ t)
  obtain ⟨y, hy, hright⟩ := collapse_append m.text t
  refine ⟨x, y, isBlank_of_mem_gap hx, isBlank_of_mem_gap hy, ?_⟩
  have hblank : collapse (gap ++ m.text ++ t) = collapse (m.text ++ t) := by
    refine collapse_congr ?_
    simpa using words_surrounded (s := m.text ++ t) hgap (List.forall_mem_nil _)
  rw [hleft, hblank, hright, collapse_solid (solid_mark m)]
  simp only [List.append_assoc]

/-- An option is cut off at its mark. -/
theorem cutMarks?_option (hgap : ∀ c ∈ gap, isBlank c = true) (hs : Whole inOption (collapse s))
    (m : OptionMark) {cut : Cut} (ht : cutMarks? none true (collapse t) = some cut) :
    ∃ cut', cutMarks? none inOption (collapse (s ++ (gap ++ m.text ++ t))) = some cut' ∧
      trim cut'.1 = collapse s ∧
        cut'.2.map (fun p => (p.1, trim p.2)) =
          (m, trim cut.1) :: cut.2.map fun p => (p.1, trim p.2) := by
  obtain ⟨x, y, hx, hy, hcollapse⟩ := exists_collapse_mark s m t hgap
  have hvalue : trim (y ++ cut.1) = trim cut.1 := by
    simpa using trim_surrounded hy cut.1 (List.forall_mem_nil _)
  have hfield : trim (collapse s ++ x) = collapse s := by
    have hend := trim_surrounded (List.forall_mem_nil _) (collapse s) hx
    rwa [List.nil_append, trim_collapse] at hend
  refine ⟨(collapse s ++ x, (m, y ++ cut.1) :: cut.2), ?_, hfield, ?_⟩
  · rw [hcollapse, hs.append (whole_blank hx), cutMarks?_mark, whole_blank hy, ht]
    simp [Cut.mark]
  · rw [List.map_cons, hvalue]

/-- Behind a part that is not cut, the options are cut off one by one. -/
theorem cutMarks?_collapse (hgap : ∀ c ∈ gap, isBlank c = true) {os : List (OptionMark × Text)}
    (hs : Whole inOption (collapse s)) (hos : ∀ o ∈ os, Whole true (collapse o.2)) :
    ∃ cut, cutMarks? none inOption (collapse (s ++ optionTail gap os)) = some cut ∧
      trim cut.1 = collapse s ∧
        cut.2.map (fun p => (p.1, trim p.2)) = os.map fun o => (o.1, collapse o.2) := by
  -- What stands before an option is the field at first, and the option before it from then on.
  induction os generalizing s inOption with
  | nil =>
    refine ⟨(collapse s, []), ?_, trim_collapse s, rfl⟩
    rw [optionTail, List.flatMap_nil, List.append_nil]
    exact hs.cutMarks?
  | cons o os ih =>
    obtain ⟨ho, hos⟩ := List.forall_mem_cons.1 hos
    obtain ⟨cut, hcut, hvalue, hrest⟩ := ih ho hos
    obtain ⟨cut', hcut', hfield, hoptions⟩ := cutMarks?_option hgap hs o.1 hcut
    have htail : s ++ optionTail gap (o :: os) =
        s ++ (gap ++ o.1.text ++ (o.2 ++ optionTail gap os)) := by
      simp only [optionTail, List.flatMap_cons, optionText, List.append_assoc]
    refine ⟨cut', by rw [htail, hcut'], hfield, ?_⟩
    rw [hoptions, hvalue, hrest, List.map_cons]

/-- **Cutting and collapsing commute.** -/
theorem splitOptions?_collapse (hgap : ∀ c ∈ gap, isBlank c = true)
    {os : List (OptionMark × Text)} (hs : Whole false (collapse s))
    (hos : ∀ o ∈ os, Whole true (collapse o.2)) :
    splitOptions? (collapse (s ++ optionTail gap os)) =
      some (collapse s, os.map fun o => (o.1, collapse o.2)) := by
  obtain ⟨cut, hcut, hfield, hoptions⟩ := cutMarks?_collapse hgap hs hos
  rw [splitOptions?, hcut, Option.map_some, hfield, hoptions]

/-- The field and the options of a descriptor, each read as it is collapsed. -/
theorem readHead?_options (hgap : ∀ c ∈ gap, isBlank c = true) {os : List (OptionMark × Text)}
    (hs : Whole false (collapse s)) (hos : ∀ o ∈ os, Whole true (collapse o.2)) :
    Resolver.readHead? (s ++ optionTail gap os) =
      if isField (collapse s) && os.length ≤ maxOptions then
        (Options.read? (os.map fun o => (o.1, collapse o.2))).map fun options =>
          (collapse s, options)
      else none := by
  unfold Resolver.readHead?
  rw [splitOptions?_collapse hgap hs hos]
  simp only [Option.bind_some, List.length_map]

/-- A single option, whose quotes may be left open. -/
theorem readHead?_option (hgap : ∀ c ∈ gap, isBlank c = true) (hs : Whole false (collapse s))
    (m : OptionMark) (ht : ∀ c ∈ Quote.outside none (collapse t), c ∉ optionMarks) :
    Resolver.readHead? (s ++ (gap ++ m.text ++ t)) =
      if isField (collapse s) then
        (Options.none.add? (m, collapse t)).map fun options => (collapse s, options)
      else none := by
  have hlast : cutMarks? none true (collapse t) = some (collapse t, []) := by
    have h := cutMarks?_outside ht []
    rw [List.append_nil] at h
    rw [h]
    simp [cutMarks?]
  obtain ⟨cut, hcut, hfield, hoptions⟩ := cutMarks?_option hgap hs m hlast
  unfold Resolver.readHead? splitOptions?
  rw [hcut, Option.map_some, Option.bind_some, hfield, hoptions, trim_collapse]
  simp [Options.read?, maxOptions]

end

/-! ## Options that set different values -/

namespace Options

theorem exists_language (s : Text) : ∃ v : Option (Option Text), ∀ o : Options,
    o.add? (.language, s) = v.map fun v => { o with language := v } := by
  by_cases h : s = [] ∨ isLanguage s
  · exact ⟨some (nonBlank s), fun o => if_pos h⟩
  · exact ⟨.none, fun o => if_neg h⟩

theorem exists_datatypes (s : Text) : ∃ v : Option (List Text), ∀ o : Options,
    o.add? (.datatype, s) = v.map fun v => { o with datatypes := v } := by
  by_cases h : (((cutsAt (· == ';') s).map trim).filter (· != [])).all isDatatypeToken
  · exact ⟨some (((cutsAt (· == ';') s).map trim).filter (· != [])), fun o => if_pos h⟩
  · exact ⟨.none, fun o => if_neg h⟩

theorem exists_visibility (s : Text) : ∃ v : Option (Option Visibility), ∀ o : Options,
    o.add? (.visibility, s) = v.map fun v => { o with visibility := v } := by
  by_cases h : s = []
  · exact ⟨some .none, fun o => if_pos h⟩
  · refine ⟨(Visibility.ofText? s).map some, fun o => ?_⟩
    rw [Option.map_map]
    exact if_neg h

/-- Options of different kinds may be added in either order. -/
theorem add?_comm {a b : OptionMark × Text} (h : a.1 ≠ b.1) (o : Options) :
    ((o.add? a).bind fun o => o.add? b) = (o.add? b).bind fun o => o.add? a := by
  obtain ⟨m, s⟩ := a
  obtain ⟨n, t⟩ := b
  obtain ⟨language, hlanguage⟩ := exists_language (if m = .language then s else t)
  obtain ⟨datatypes, hdatatypes⟩ := exists_datatypes (if m = .datatype then s else t)
  obtain ⟨visibility, hvisibility⟩ := exists_visibility (if m = .visibility then s else t)
  cases m <;> cases n
  case datatype.datatype | language.language | visibility.visibility => exact absurd rfl h
  all_goals
    simp only [reduceCtorEq, if_true, if_false] at hlanguage hdatatypes hvisibility
    simp only [hlanguage, hdatatypes, hvisibility]
    cases language <;> cases datatypes <;> cases visibility <;> rfl

theorem foldlM_perm {os os' : List (OptionMark × Text)} (h : os.Perm os')
    (hnodup : (os.map Prod.fst).Nodup) (o : Options) :
    os.foldlM add? o = os'.foldlM add? o := by
  induction h generalizing o with
  | nil => rfl
  | cons x _ ih =>
    rw [List.foldlM_cons, List.foldlM_cons]
    exact Option.bind_congr fun o _ => ih (List.nodup_cons.1 hnodup).2 o
  | swap x y os =>
    have hne : y.1 ≠ x.1 := fun h => (List.nodup_cons.1 hnodup).1 (h ▸ List.mem_cons_self)
    simp only [List.foldlM_cons, Option.bind_eq_bind]
    rw [← Option.bind_assoc, ← Option.bind_assoc, add?_comm hne]
  | trans hleft _ ihleft ihright =>
    exact (ihleft hnodup o).trans (ihright ((hleft.map Prod.fst).nodup_iff.1 hnodup) o)

end Options

/-! ## Descriptors -/

/-- A descriptor without the text it is written as. -/
def Descriptor.unwritten (d : Descriptor) : Descriptor :=
  { d with destination := { d.destination with written := none } }

namespace Resolver

/-- Without pattern the text is a head. -/
theorem resolve_plain (r : Resolver) {text : Text} (h : '~' ∉ Quote.outside none text) :
    r.resolve text =
      match readHead? text with
      | none => .ok none
      | some (field, o) =>
        (r.build field o.datatypes o.language o.visibility (some (trim text))).map fun d =>
          some ⟨d, none⟩ := by
  have hpattern : splitPattern (trim text) = (trim text, none) := by
    have hcut : cutOutside? '~' (trim text) = none := by
      rw [cutOutside?_eq_none_iff (by decide), mem_outside_congr (filter_trim text) (by decide)]
      exact h
    rw [splitPattern, hcut]
  have hhead : readHead? (trim text) = readHead? text := by
    unfold readHead?
    rw [collapse_trim]
  unfold resolve
  simp only [hpattern, hhead]
  rfl

/-- A descriptor keeps the text it is read from. -/
theorem written_resolve {r : Resolver} {text : Text} {d : Descriptor}
    (h : r.resolve text = .ok (some d)) : d.destination.written = some (trim text) := by
  obtain ⟨_, _, -, hbuild, -⟩ := resolve_eq_some_iff.1 h
  obtain ⟨_, -, hdestination⟩ := map_eq_ok.1 hbuild
  rw [← hdestination]

theorem mem_resolveAll {r : Resolver} {text : Text} {d : Descriptor}
    (h : .ok d ∈ r.resolveAll text) : ∃ part ∈ fanOut text, r.resolve part = .ok (some d) := by
  obtain ⟨part, hpart, hd⟩ := List.mem_filterMap.1 h
  refine ⟨part, hpart, ?_⟩
  split at hd
  · cases hd
  · next hresolve =>
    rw [hresolve]
    cases hd
    rfl
  · cases hd

theorem resolve_congr (r : Resolver) {text text' : Text} (h : '~' ∉ Quote.outside none text)
    (h' : '~' ∉ Quote.outside none text') (hhead : readHead? text = readHead? text') :
    (r.resolve text).map (Option.map Descriptor.unwritten) =
      (r.resolve text').map (Option.map Descriptor.unwritten) := by
  rw [r.resolve_plain h, r.resolve_plain h', hhead]
  cases readHead? text' with
  | none => rfl
  | some p =>
    dsimp only
    rw [r.build_written, r.build_written _ _ _ _ (some (trim text'))]
    cases r.build p.1 p.2.datatypes p.2.language p.2.visibility none <;> rfl

end Resolver

/-! ## Any order -/

/-- A text whose marks stand between paired quotes. -/
def Shielded (s : Text) : Prop :=
  Quote.after none s = none ∧ ∀ c ∈ Quote.outside none s, c ∉ ("@§^~" : Text)

instance (s : Text) : Decidable (Shielded s) :=
  decidable_of_iff (Quote.after none s = none ∧
    ((Quote.outside none s).all fun c => decide (c ∉ ("@§^~" : Text))) = true)
    (and_congr_right' (List.all_eq_true.trans (by simp only [decide_eq_true_eq])))

section
variable {s gap : Text} {os : List (OptionMark × Text)}

theorem shielded_of_unquoted (h : ∀ c ∈ s, isQuoteMark c = false ∧ c ∉ ("@§^~" : Text)) :
    Shielded s :=
  ⟨(outside_unquoted fun c hc => (h c hc).1).2, fun c hc => (h c (outside_subset hc)).2⟩

theorem Shielded.whole (h : Shielded s) : Whole true (collapse s) := by
  refine whole_option (fun c hc hmark => ?_) ?_
  · have hsolid : ∀ d ∈ optionMarks, isBlank d = false ∧ d ∈ ("@§^~" : Text) :=
      forall_mem_of_all (by decide)
    obtain ⟨hblank, hmem⟩ := hsolid c hmark
    exact h.2 c ((mem_outside_congr (filter_collapse s) hblank).1 hc) hmem
  · rw [after_congr (filter_collapse s), h.1]

theorem Shielded.sealed (h : Shielded s) : Sealed '~' s :=
  ⟨h.1, fun hc => h.2 '~' hc (by decide)⟩

theorem sealed_optionTail (hgap : ∀ c ∈ gap, isBlank c = true) (hos : ∀ o ∈ os, Shielded o.2) :
    Sealed '~' (optionTail gap os) := by
  have hblank : Free '~' gap := fun c hc => by
    refine ⟨isQuoteMark_of_isBlank (hgap c hc), ?_⟩
    rintro rfl
    cases hgap _ hc
  have hmark : ∀ m : OptionMark, Free '~' m.text := by
    rintro (_ | _ | _) <;> exact forall_mem_of_all (by decide)
  induction os with
  | nil => exact ⟨rfl, List.not_mem_nil⟩
  | cons o os ih =>
    obtain ⟨ho, hos⟩ := List.forall_mem_cons.1 hos
    have hoption : Sealed '~' (optionText o) := (hmark o.1).sealed.append ho.sealed
    rw [optionTail, List.flatMap_cons]
    exact (hblank.sealed.append hoption).append (ih hos)

end

namespace Resolver

/-- **The order of the options does not matter.** -/
theorem resolve_perm (r : Resolver) {field gap gap' : Text} {os os' : List (OptionMark × Text)}
    (hfield : ∀ c ∈ field, isQuoteMark c = false ∧ c ∉ ("@§^~" : Text))
    (hos : ∀ o ∈ os, Shielded o.2) (hmarks : (os.map Prod.fst).Nodup) (hperm : os.Perm os')
    (hgap : ∀ c ∈ gap, isBlank c = true) (hgap' : ∀ c ∈ gap', isBlank c = true) :
    (r.resolve (field ++ optionTail gap os)).map (Option.map Descriptor.unwritten) =
      (r.resolve (field ++ optionTail gap' os')).map (Option.map Descriptor.unwritten) := by
  have hos' : ∀ o ∈ os', Shielded o.2 := fun o ho => hos o (hperm.mem_iff.2 ho)
  have hsealed : Sealed '~' field := (shielded_of_unquoted hfield).sealed
  refine r.resolve_congr (hsealed.append (sealed_optionTail hgap hos)).2
    (hsealed.append (sealed_optionTail hgap' hos')).2 ?_
  have hwhole : Whole false (collapse field) := by
    refine whole_field fun c hc hmark => ?_
    have hmarks : ∀ d ∈ optionMarks, d ≠ ' ' ∧ d ∈ ("@§^~" : Text) := forall_mem_of_all (by decide)
    rcases mem_collapse hc with rfl | ⟨hmem, -⟩
    · exact (hmarks _ hmark).1 rfl
    · exact (hfield c hmem).2 (hmarks c hmark).2
  have hread : Options.read? (os.map fun o => (o.1, collapse o.2)) =
      Options.read? (os'.map fun o => (o.1, collapse o.2)) :=
    Options.foldlM_perm (hperm.map _) (by rwa [List.map_map]) _
  rw [readHead?_options hgap hwhole fun o ho => (hos o ho).whole,
    readHead?_options hgap' hwhole fun o ho => (hos' o ho).whole, hread, hperm.length_eq]

/-- One option of each kind, one of them with a mark between its quotes. -/
def threeOptions : List (OptionMark × Text) :=
  [(.language, "fra"), (.datatype, "customvocab:\"a @ b\""), (.visibility, "private")]

theorem resolve_perm_three :
    ((resolve ⟨.dublinCoreAlone, true, []⟩
      "dcterms:title @fra ^^customvocab:\"a @ b\" §private").map
        (Option.map Descriptor.unwritten)) =
      ((resolve ⟨.dublinCoreAlone, true, []⟩
        "dcterms:title§private^^customvocab:\"a @ b\"@fra").map
          (Option.map Descriptor.unwritten)) := by
  have hleft : ("dcterms:title @fra ^^customvocab:\"a @ b\" §private" : Text) =
      "dcterms:title" ++ optionTail [' '] threeOptions := by decide
  have hright : ("dcterms:title§private^^customvocab:\"a @ b\"@fra" : Text) =
      "dcterms:title" ++ optionTail [] threeOptions.reverse := by decide
  have hfield : ∀ c ∈ ("dcterms:title" : Text), isQuoteMark c = false ∧ c ∉ ("@§^~" : Text) :=
    forall_mem_of_all (by decide)
  rw [hleft, hright]
  exact resolve_perm ⟨.dublinCoreAlone, true, []⟩ hfield (by decide) (by decide)
    (List.reverse_perm _).symm (List.forall_mem_singleton.2 (by decide)) (List.forall_mem_nil _)

end Resolver

end Crosswalk
