import Crosswalk.Proofs.Destination.Options

/-!
# Labels of custom vocabularies

A custom vocabulary may be named by its label between double quotes, `customvocab:"A label"`, and a
descriptor with this datatype is cut at four marks, two of them without regard to quotes: at `|` into
targets and at `;` into datatypes. The first `~` outside quotes starts the pattern, and stands inside
the label when the field leaves a double quote open. So the label is read if and only if it has none
of them (`Labelled.Readable`), and then it is read as it is collapsed:

    r.resolveAll w.text = [.ok (w.descriptor r term (collapse w.label))]       (resolveAll_labelled)
-/

namespace Crosswalk

open Text

/-! ## Datatypes with a label -/

/-- A custom vocabulary by its quoted label. -/
def labelled (label : Text) : Text := customMark ++ '"' :: (label ++ ['"'])

/-- What stands before the label. -/
def labelMark : Text := customMark ++ ['"']

theorem labelled_eq (label : Text) : labelled label = labelMark ++ (label ++ ['"']) := by
  rw [labelled, labelMark, List.append_assoc, List.singleton_append]

theorem solid_labelMark : Solid labelMark := ⟨by decide, forall_mem_of_all (by decide)⟩

section
variable {label s t : Text}

theorem takeWhile_label (hquote : '"' ∉ label)
    (hbreak : ∀ c ∈ label, c ≠ '\n' ∧ c ≠ '\r') (rest : Text) :
    ((label ++ '"' :: rest).takeWhile fun c => c != '"' && c != '\n' && c != '\r') = label := by
  rw [List.takeWhile_append_of_pos]
  · simp
  · intro c hc
    have hne : c ≠ '"' := ne_of_mem_of_not_mem hc hquote
    simp [hne, hbreak c hc]

theorem trim_labelled (label : Text) : trim (labelled label) = labelled label := by
  have hmark : Trimmed isBlank customMark := .of_forall (forall_mem_of_all (by decide))
  have hquote : Trimmed isBlank ['"'] := .of_forall (forall_mem_of_all (by decide))
  have htrimmed := hmark.append (by decide) hquote (by decide) ('"' :: label)
  rw [List.append_assoc, List.cons_append] at htrimmed
  exact htrimmed.trimOf_eq

/-- A label without quotes on one line is quoted to a datatype. -/
theorem listed_labelled (hne : label ≠ []) (hquote : '"' ∉ label)
    (hbreak : ∀ c ∈ label, c ≠ '\n' ∧ c ≠ '\r') (hsingle : ';' ∉ label) :
    Listed (labelled label) where
  token := by
    have hlength : quotedLabelLength? ('"' :: (label ++ ['"'])) = some (label.length + 2) := by
      simp [quotedLabelLength?, takeWhile_label hquote hbreak, isQuoteMark, hne]
    rw [isDatatypeToken, labelled, after?_append]
    simp [hlength]
  trimmed := trim_labelled label
  single := by
    have hmark : ';' ∉ customMark := by decide
    simp [labelled, hmark, hsingle]

/-- A label whose quote is not closed is no datatype. -/
theorem isDatatypeToken_unclosed (h : '"' ∉ s) : isDatatypeToken (labelMark ++ s) = false := by
  have hquoted : quotedLabelLength? ('"' :: s) = none := by
    rw [quotedLabelLength?]
    refine if_neg ?_
    rw [Bool.and_eq_true, beq_iff_eq]
    rintro ⟨-, hhead⟩
    exact h (List.mem_of_mem_drop (List.mem_of_head? hhead))
  have hname : isPlainName (labelMark ++ s) = false := by
    have hpart : isNamePart '"' = false := by decide
    have hmem : '"' ∈ labelMark.tail ++ s := List.mem_append_left _ (by decide)
    have hcons : labelMark ++ s = 'c' :: (labelMark.tail ++ s) := rfl
    rw [hcons, isPlainName, Bool.and_eq_false_iff]
    exact .inr (List.all_eq_false.2 ⟨'"', hmem, by simp [hpart]⟩)
  rw [isDatatypeToken, hname, labelMark, List.append_assoc, after?_append, List.singleton_append]
  simp [hquoted, isQuoteMark]

/-- A list whose first label is cut before its quote is closed is no option. -/
theorem add?_unclosed (o : Options) (hs : '"' ∉ s) (ht : t = [] ∨ t.head? = some ';') :
    o.add? (.datatype, labelMark ++ (s ++ t)) = none := by
  obtain ⟨x, xs, hcut, hsub⟩ : ∃ x xs, cutsAt (· == ';') (s ++ t) = x :: xs ∧ x ⊆ s := by
    obtain ⟨x, xs, hx⟩ := exists_cutsAt_first (· == ';') s
    have hsub : x ⊆ s := mem_of_mem_cutsAt (hx ▸ List.mem_cons_self)
    rcases ht with rfl | ht
    · exact ⟨x, xs, by rwa [List.append_nil], hsub⟩
    · obtain ⟨u, rfl⟩ := List.head?_eq_some_iff.1 ht
      exact ⟨x, xs ++ cutsAt (· == ';') u, by rw [cutsAt_append (by decide), hx]; rfl, hsub⟩
  have hmark : cutsAt (· == ';') labelMark = [] ++ [labelMark] :=
    cutsAt_of_forall (forall_mem_of_all (by decide))
  have hfirst : cutsAt (· == ';') (labelMark ++ (s ++ t)) = (labelMark ++ x) :: xs :=
    cutsAt_runs hmark hcut
  have htrim : trim (labelMark ++ x) = labelMark ++ trimEnd x :=
    trim_append (.of_forall solid_labelMark.2) solid_labelMark.1 x
  have htoken : isDatatypeToken (labelMark ++ trimEnd x) = false :=
    isDatatypeToken_unclosed fun hc => hs (hsub (trimEnd_subset x hc))
  have hne : labelMark ++ trimEnd x ≠ [] := fun h =>
    solid_labelMark.1 (List.append_eq_nil_iff.1 h).1
  have hall : (((labelMark ++ trimEnd x) :: xs.map trim).filter (· != [])).all isDatatypeToken =
      false :=
    List.all_eq_false.2 ⟨labelMark ++ trimEnd x,
      List.mem_filter.2 ⟨List.mem_cons_self, bne_iff_ne.2 hne⟩, by simp [htoken]⟩
  simp only [Options.add?, hfirst, List.map_cons, htrim, hall]
  rfl

end

/-! ## Descriptors with a label -/

/-- A field and a custom vocabulary by its label, which further datatypes may follow. -/
structure Labelled where
  field : Text
  label : Text
  more : List Text
  isField_field : isField field = true
  label_trimmed : trim label = label
  label_ne : label ≠ []
  label_unquoted : ∀ c ∈ label, isQuoteMark c = false
  more_plain : ∀ d ∈ more, isPlainName d = true

namespace Labelled

variable (w : Labelled)

/-- The datatypes behind the label. -/
def rest : Text := w.more.flatMap fun d => ';' :: d

/-- The descriptor as it is written. -/
def text : Text :=
  w.field ++ ([' '] ++ OptionMark.datatype.text ++ (labelMark ++ (w.label ++ '"' :: w.rest)))

/-- Nothing in the label cuts the descriptor. -/
structure Readable : Prop where
  semicolon : ';' ∉ w.label
  bar : '|' ∉ w.label
  tilde : Quote.after none w.field = some '"' → '~' ∉ w.label

/-- What is read when the label is taken for `label`. -/
def descriptor (r : Resolver) (term label : Text) : Descriptor where
  destination :=
    { field := term
      propertyId := r.register.propertyId (FieldMatcher.canonicalTerm term)
      datatypes := r.datatypes.canonicalize (labelled label :: w.more)
      language := none
      visibility := none
      written := some w.text }
  pattern := none

theorem joinWith_rest (label : Text) :
    joinWith [';'] (labelled label :: w.more) = labelMark ++ (label ++ '"' :: w.rest) := by
  have hrest : ∀ (d : Text) (ds : List Text),
      joinWith [';'] (d :: ds) = d ++ ds.flatMap fun d => ';' :: d := by
    intro d ds
    induction ds generalizing d with
    | nil => simp
    | cons e ds ih =>
      rw [joinWith_cons _ _ (by simp), ih]
      simp
  rw [hrest, labelled_eq, rest]
  simp only [List.append_assoc, List.singleton_append]

theorem isOptionPart_rest : ∀ c ∈ w.rest, isOptionPart c = true := by
  intro c hc
  obtain ⟨d, hd, hc⟩ := List.mem_flatMap.1 hc
  rcases List.mem_cons.1 hc with rfl | hc
  · decide
  · exact isOptionPart_of_mem_name (w.more_plain d hd) hc

theorem not_mem_rest {c : Char} (h : c ∈ marks) : c ∉ w.rest := fun hc =>
  not_mem_marks (w.isOptionPart_rest c hc) h

theorem quote_not_mem : '"' ∉ w.label := fun h => by
  have := w.label_unquoted '"' h
  cases this

theorem trimmed_label : Trimmed isBlank w.label := by
  rw [← w.label_trimmed]
  exact trimmed_trimOf isBlank w.label

theorem collapse_ne : collapse w.label ≠ [] := by
  obtain ⟨c, s, hs⟩ := List.exists_cons_of_ne_nil w.label_ne
  have hc : isBlank c = false := w.trimmed_label.1 c (by rw [hs]; rfl)
  obtain ⟨t, ht⟩ := exists_collapse_cons hc s
  rw [hs, ht]
  exact List.cons_ne_nil _ _

/-- Collapsing the datatypes collapses the label. -/
theorem collapse_datatypes :
    collapse (labelMark ++ (w.label ++ '"' :: w.rest)) =
      labelMark ++ (collapse w.label ++ '"' :: w.rest) := by
  have hrest : ∀ c ∈ '"' :: w.rest, isBlank c = false :=
    List.forall_mem_cons.2 ⟨by decide, fun c hc =>
      not_isBlank_of_isOptionPart (w.isOptionPart_rest c hc)⟩
  have hlabel : collapse (w.label ++ '"' :: w.rest) = collapse w.label ++ '"' :: w.rest := by
    rw [collapse_tight w.trimmed_label.2 (Trimmed.of_forall hrest).1, collapse_solid hrest]
  have hhead : ∀ c ∈ (w.label ++ '"' :: w.rest).head?, isBlank c = false := by
    obtain ⟨c, s, hs⟩ := List.exists_cons_of_ne_nil w.label_ne
    have htrimmed := w.trimmed_label.1
    rw [hs] at htrimmed ⊢
    exact htrimmed
  rw [collapse_tight (Trimmed.of_forall solid_labelMark.2).2 hhead, hlabel,
    collapse_solid solid_labelMark.2]

theorem trim_text : trim w.text = w.text := by
  have hend : Trimmed isBlank ('"' :: w.rest) :=
    .of_forall (List.forall_mem_cons.2 ⟨by decide, fun c hc =>
      not_isBlank_of_isOptionPart (w.isOptionPart_rest c hc)⟩)
  have htext : w.text = w.field ++ ([' '] ++ OptionMark.datatype.text ++ labelMark ++ w.label) ++
      '"' :: w.rest := by
    simp only [text, List.append_assoc]
  rw [htext]
  exact trim_field_append w.isField_field _ hend (by simp)

/-! ## What stands outside quotes -/

/-- The descriptor from its field up to the quote. -/
def lead : Text := [' '] ++ OptionMark.datatype.text ++ customMark

theorem lead_free : Free '~' lead := forall_mem_of_all (by decide)

theorem text_eq : w.text = w.field ++ lead ++ '"' :: (w.label ++ '"' :: w.rest) := by
  simp only [text, lead, labelMark, List.append_assoc, List.cons_append, List.nil_append]

theorem not_mem_field {c : Char} (h : c ∈ fieldMarks) : c ∉ w.field := fun hc =>
  (isField_iff.1 w.isField_field).2 c hc h

theorem outside_labelMark (s : Text) :
    Quote.outside none (labelMark ++ s) = customMark ++ Quote.outside (some '"') s := by
  rw [outside_append]
  rfl

theorem outside_closed {s : Text} (hs : '"' ∉ s) (t : Text) :
    Quote.outside (some '"') (s ++ '"' :: t) = Quote.outside none t := by
  rw [outside_append, (outside_within hs).1, (outside_within hs).2]
  rfl

/-- Behind a field that leaves no quote open, the label stands between quotes. -/
theorem outside_label_shielded :
    '~' ∉ Quote.outside none (lead ++ '"' :: (w.label ++ '"' :: w.rest)) := by
  have hlabel : Quote.outside none ('"' :: (w.label ++ '"' :: w.rest)) =
      Quote.outside none w.rest := outside_closed w.quote_not_mem w.rest
  rw [outside_append, lead_free.after, hlabel, List.mem_append, not_or]
  exact ⟨lead_free.sealed.2, fun h => w.not_mem_rest (by decide) (outside_subset h)⟩

/-- Behind a field that leaves a double quote open, the one before the label closes it. -/
theorem outside_label_bare :
    '~' ∈ Quote.outside (some '"') (lead ++ '"' :: (w.label ++ '"' :: w.rest)) ↔
      '~' ∈ w.label := by
  have hrest : '~' ∉ Quote.outside none ('"' :: w.rest) := fun h => by
    rcases List.mem_cons.1 (outside_subset h) with h | h
    · cases h
    · exact w.not_mem_rest (by decide) h
  have hlabel := outside_unquoted w.label_unquoted
  rw [outside_closed (by decide), outside_append, hlabel.1, hlabel.2, List.mem_append,
    or_iff_left hrest]

/-- Behind a field that leaves a single quote open, all stands inside of it. -/
theorem outside_label_single :
    Quote.outside (some '\'') (lead ++ '"' :: (w.label ++ '"' :: w.rest)) = [] := by
  refine (outside_within fun h => ?_).1
  simp only [List.mem_append, List.mem_cons] at h
  rcases h with h | h | h | h | h
  · exact absurd h (by decide)
  · exact absurd h (by decide)
  · have := w.label_unquoted _ h
    cases this
  · exact absurd h (by decide)
  · exact w.not_mem_rest (by decide) h

/-- The label is cut at a `~` if and only if the field leaves a double quote open. -/
theorem tilde_outside : '~' ∈ Quote.outside none w.text ↔
    Quote.after none w.field = some '"' ∧ '~' ∈ w.label := by
  have hfield : '~' ∉ Quote.outside none w.field := fun h =>
    w.not_mem_field (by decide) (outside_subset h)
  have hmarks : ∀ q ∈ Quote.after none w.field, isQuoteMark q = true :=
    Quote.isQuoteMark_after (by simp) w.field
  rw [text_eq, List.append_assoc, outside_append, List.mem_append, or_iff_right hfield]
  cases hopened : Quote.after none w.field with
  | none => simp [w.outside_label_shielded]
  | some q =>
    rw [hopened] at hmarks
    have hq : q = '\'' ∨ q = '"' := by simpa [isQuoteMark] using hmarks q rfl
    rcases hq with rfl | rfl
    · simp [w.outside_label_single]
    · simp [w.outside_label_bare]

/-! ## Reading the label -/

theorem bar_mem_text : '|' ∈ w.text ↔ '|' ∈ w.label := by
  rw [text_eq]
  simp [w.not_mem_field (by decide : '|' ∈ fieldMarks), w.not_mem_rest (by decide : '|' ∈ marks),
    (by decide : '|' ∉ lead)]

theorem readHead?_label {s : Text} (hs : ∀ c ∈ Quote.outside (some '"') s, c ∉ optionMarks)
    {t : Text} (ht : collapse (labelMark ++ t) = labelMark ++ s) :
    Resolver.readHead? (w.field ++ ([' '] ++ OptionMark.datatype.text ++ (labelMark ++ t))) =
      (Options.none.add? (.datatype, labelMark ++ s)).map fun options =>
        (collapse w.field, options) := by
  have houtside : ∀ c ∈ Quote.outside none (collapse (labelMark ++ t)), c ∉ optionMarks := by
    rw [ht, outside_labelMark]
    exact List.forall_mem_append.2 ⟨forall_mem_of_all (by decide), hs⟩
  rw [readHead?_option (List.forall_mem_singleton.2 (by decide)) (whole_of_isField w.isField_field)
    _ houtside, if_pos (isField_collapse w.isField_field), ht]

/-- **The options of a label**, when it is not cut at a `~`. -/
theorem readHead?_text : Resolver.readHead? w.text =
    if ';' ∈ w.label then none
    else some (collapse w.field, ⟨none, labelled (collapse w.label) :: w.more, none⟩) := by
  have hquote : '"' ∉ collapse w.label := (mem_collapse_iff (by decide)).not.2 w.quote_not_mem
  have houtside : ∀ c ∈ Quote.outside (some '"') (collapse w.label ++ '"' :: w.rest),
      c ∉ optionMarks := by
    have hmarks : ∀ c ∈ optionMarks, c ∈ marks := forall_mem_of_all (by decide)
    rw [outside_closed hquote]
    exact fun c hc hmark => w.not_mem_rest (hmarks c hmark) (outside_subset hc)
  rw [text, w.readHead?_label houtside w.collapse_datatypes]
  split
  · next h =>
    obtain ⟨s, t, hst, -⟩ :=
      List.eq_append_cons_of_mem ((mem_collapse_iff (by decide : isBlank ';' = false)).2 h)
    have hs : '"' ∉ s := fun hmem => hquote (hst ▸ List.mem_append_left _ hmem)
    rw [hst, List.append_assoc, List.cons_append, add?_unclosed _ hs (.inr rfl)]
    rfl
  · next h =>
    have hlisted : ∀ d ∈ labelled (collapse w.label) :: w.more, Listed d := by
      refine List.forall_mem_cons.2 ⟨?_, fun d hd => listed_of_name (w.more_plain d hd)⟩
      refine listed_labelled ?_ hquote ?_ ((mem_collapse_iff (by decide)).not.2 h)
      · exact w.collapse_ne
      · intro c hc
        have hbreaks : ∀ d ∈ ['\n', '\r'], isBlank d = true := forall_mem_of_all (by decide)
        rcases mem_collapse hc with rfl | ⟨-, hblank⟩
        · decide
        · have hne : ∀ d ∈ ['\n', '\r'], c ≠ d := by
            rintro d hd rfl
            rw [hbreaks c hd] at hblank
            cases hblank
          exact ⟨hne '\n' (by decide), hne '\r' (by decide)⟩
    rw [← w.joinWith_rest, add?_datatypes (List.cons_ne_nil _ _) hlisted]
    rfl

/-! ## Resolving the descriptor -/

variable (r : Resolver) {term : Text}

/-- Where the label is cut at a `~`, its quote is not closed before the pattern. -/
theorem resolveAll_tilde (h : ¬(Quote.after none w.field = some '"' → '~' ∉ w.label)) :
    r.resolveAll w.text = [] := by
  -- The quote before the label closes the one of the field, so the label stands outside quotes.
  obtain ⟨hopened, htilde⟩ := Classical.not_imp.1 h
  obtain ⟨s, t, hst, hs⟩ := List.eq_append_cons_of_mem (not_not.1 htilde)
  have hsquote : '"' ∉ s := fun h => w.quote_not_mem (hst ▸ List.mem_append_left _ h)
  have hfree : Free '~' s := fun c hc =>
    ⟨w.label_unquoted c (hst ▸ List.mem_append_left _ hc), ne_of_mem_of_not_mem hc hs⟩
  have hbefore : cutOutside? '~' (w.field ++ lead ++ ['"']) = none := by
    refine cutOutside?_of_not_mem ?_
    simp [w.not_mem_field (by decide : '~' ∈ fieldMarks), (by decide : '~' ∉ lead)]
  have hclosed : Quote.after none (w.field ++ lead ++ ['"']) = none := by
    rw [Quote.after_append, Quote.after_append, hopened, (outside_within (by decide)).2]
    rfl
  have htext : w.text = (w.field ++ lead ++ ['"']) ++ (s ++ '~' :: (t ++ '"' :: w.rest)) := by
    rw [text_eq, hst]
    simp only [List.append_assoc, List.cons_append, List.nil_append]
  have hpattern : splitPattern w.text =
      (w.field ++ ([' '] ++ OptionMark.datatype.text ++ (labelMark ++ s)),
        some (trim (t ++ '"' :: w.rest))) := by
    have hhead : w.field ++ ([' '] ++ OptionMark.datatype.text ++ (labelMark ++ s)) =
        w.field ++ lead ++ ['"'] ++ s := by
      simp only [lead, labelMark, List.append_assoc, List.cons_append, List.nil_append]
    rw [splitPattern, htext, cutOutside?_append hbefore hclosed,
      cutOutside?_append hfree.cutOutside? hfree.after, hhead]
    simp [cutOutside?, cutOutsideFrom?]
  have hhead : Resolver.readHead?
      (w.field ++ ([' '] ++ OptionMark.datatype.text ++ (labelMark ++ s))) = none := by
    obtain ⟨gap, hgap, hcollapse⟩ := collapse_append labelMark s
    rw [collapse_solid solid_labelMark.2, List.append_assoc] at hcollapse
    have hquote : '"' ∉ gap ++ collapse s := by
      rw [List.mem_append, not_or, mem_collapse_iff (by decide)]
      exact ⟨fun h => absurd (isBlank_of_mem_gap hgap _ h) (by decide), hsquote⟩
    have hinside : ∀ c ∈ Quote.outside (some '"') (gap ++ collapse s), c ∉ optionMarks := by
      rw [(outside_within hquote).1]
      exact List.forall_mem_nil _
    have hunclosed := add?_unclosed Options.none hquote (.inl rfl)
    rw [List.append_nil] at hunclosed
    rw [w.readHead?_label hinside hcollapse, hunclosed]
    rfl
  have hfan : Resolver.fanOut w.text = [w.text] := by simp [Resolver.fanOut, hpattern]
  have hnone : r.resolve w.text = .ok none := by
    unfold Resolver.resolve
    simp only [w.trim_text, hpattern, hhead]
  simp [Resolver.resolveAll, hfan, hnone]

section
variable (htilde : Quote.after none w.field = some '"' → '~' ∉ w.label)
include htilde

theorem tilde_not_outside : '~' ∉ Quote.outside none w.text := fun h =>
  htilde (w.tilde_outside.1 h).1 (w.tilde_outside.1 h).2

/-- Without bars the descriptor is read as a whole. -/
theorem resolveAll_whole (hbar : '|' ∉ w.label)
    (hterm : r.resolveField (cleanName w.field) = .ok term) :
    r.resolveAll w.text =
      if ';' ∈ w.label then [] else [.ok (w.descriptor r term (collapse w.label))] := by
  have houtside := w.tilde_not_outside htilde
  have hcut : cutOutside? '~' w.text = none := (cutOutside?_eq_none_iff (by decide)).2 houtside
  have hfan : Resolver.fanOut w.text = [w.text] := by
    simp [Resolver.fanOut, splitPattern, hcut, w.bar_mem_text, hbar]
  unfold Resolver.resolveAll
  rw [hfan, List.filterMap_cons, r.resolve_plain houtside, w.readHead?_text]
  by_cases hsemicolon : ';' ∈ w.label
  · simp only [if_pos hsemicolon, List.filterMap_nil]
  · have hbuilt : r.build (collapse w.field) (labelled (collapse w.label) :: w.more) none none
        (some (trim w.text)) = .ok (w.descriptor r term (collapse w.label)).destination := by
      rw [Resolver.build, cleanName_congr (words_collapse w.field), hterm, w.trim_text]
      rfl
    simp only [if_neg hsemicolon, hbuilt]
    rfl

end

/-- With a bar only its parts are read. -/
theorem written_bar (hbar : '|' ∈ w.label) :
    ∀ d, .ok d ∈ r.resolveAll w.text → d.destination.written ≠ some w.text := by
  intro d hd hwritten
  by_cases htilde : Quote.after none w.field = some '"' → '~' ∉ w.label
  · have hcut : cutOutside? '~' w.text = none :=
      (cutOutside?_eq_none_iff (by decide)).2 (w.tilde_not_outside htilde)
    obtain ⟨part, hpart, hresolve⟩ := Resolver.mem_resolveAll hd
    have hmem : part ∈ ((cutsAt (· == '|') w.text).map trim).filter (· != []) := by
      simpa [Resolver.fanOut, splitPattern, hcut, w.bar_mem_text.2 hbar] using hpart
    obtain ⟨run, hrun, rfl⟩ := List.mem_map.1 (List.mem_of_mem_filter hmem)
    rw [Resolver.written_resolve hresolve] at hwritten
    have hrunbar : '|' ∈ trim (trim run) := Option.some.inj hwritten ▸ w.bar_mem_text.2 hbar
    have hnot := not_of_mem_cutsAt hrun _ (mem_of_mem_trimOf (mem_of_mem_trimOf hrunbar))
    exact absurd hnot (by decide)
  · rw [w.resolveAll_tilde r htilde] at hd
    cases hd

/-! ## Names of labels -/

/-- A label names the custom vocabulary that has it. -/
theorem canonical_labelled (d : Datatypes) {label : Text} (htrim : trim label = label) :
    d.canonical (labelled label) = d.ofCustom label := by
  have hlabel : trim ('"' :: (label ++ ['"'])) = '"' :: (label ++ ['"']) := by
    have hquote : Trimmed isBlank ['"'] := .of_forall (forall_mem_of_all (by decide))
    exact (hquote.append (by decide) hquote (by decide) label).trimOf_eq
  have hunquote : unquote ('"' :: (label ++ ['"'])) = label := by
    simp [unquote, isQuoted, isQuoteMark]
  have hafter : after? customMark (labelled label) = some ('"' :: (label ++ ['"'])) :=
    after?_append _ _
  unfold Datatypes.canonical
  simp only [trim_labelled, hafter, hlabel, hunquote, htrim]

/-- The name of a label comes first. -/
theorem exists_canonicalize (d : Datatypes) {label : Text} (htrim : trim label = label)
    (hne : label ≠ []) : ∃ name, d.canonical (labelled label) = some (customMark ++ name) ∧
      ∀ more, d.canonicalize (labelled label :: more) =
        (customMark ++ name) ::
          (d.canonicalize more).filter fun other => other != customMark ++ name := by
  have hcustom : ∃ name, d.ofCustom label = some (customMark ++ name) := by
    unfold Datatypes.ofCustom
    rw [if_neg hne]
    split
    · exact ⟨label, rfl⟩
    · split
      · exact ⟨label, rfl⟩
      · next id _ => exact ⟨id.text, rfl⟩
  obtain ⟨name, hname⟩ := hcustom
  rw [← canonical_labelled d htrim] at hname
  refine ⟨name, hname, fun more => ?_⟩
  rw [Datatypes.canonicalize, List.filterMap_cons, hname]
  rfl

/-- The collapsed label stands for the same datatypes if and only if it has the same name. -/
theorem descriptor_collapse_iff (term : Text) :
    w.descriptor r term (collapse w.label) = w.descriptor r term w.label ↔
      r.datatypes.canonical (labelled (collapse w.label)) =
        r.datatypes.canonical (labelled w.label) := by
  obtain ⟨name, hname, hlist⟩ := exists_canonicalize r.datatypes w.label_trimmed w.label_ne
  obtain ⟨name', hname', hlist'⟩ :=
    exists_canonicalize r.datatypes (trim_collapse w.label) w.collapse_ne
  constructor
  · intro h
    have hdatatypes : r.datatypes.canonicalize (labelled (collapse w.label) :: w.more) =
        r.datatypes.canonicalize (labelled w.label :: w.more) :=
      congrArg (fun d => d.destination.datatypes) h
    rw [hlist, hlist'] at hdatatypes
    rw [hname, hname', (List.cons.inj hdatatypes).1]
  · intro h
    have hdatatypes : r.datatypes.canonicalize (labelled (collapse w.label) :: w.more) =
        r.datatypes.canonicalize (labelled w.label :: w.more) := by
      unfold Datatypes.canonicalize
      rw [List.filterMap_cons, List.filterMap_cons, h]
    unfold descriptor
    rw [hdatatypes]

end Labelled

/-! ## Reading a label as it is -/

/-- **A quoted label** is read if and only if nothing in it cuts the descriptor, and then as it is
collapsed. Otherwise no descriptor is read from the whole text, and none at all without a bar. So
the descriptor is the one of the label if and only if, besides, the collapsed label has the same
name. That name alone, or the names of further datatypes behind it, are the datatypes. -/
theorem resolveAll_labelled (r : Resolver) (w : Labelled) {term : Text}
    (hterm : r.resolveField (cleanName w.field) = .ok term) :
    (w.Readable → r.resolveAll w.text = [.ok (w.descriptor r term (collapse w.label))]) ∧
    (¬w.Readable → ∀ d, .ok d ∈ r.resolveAll w.text → d.destination.written ≠ some w.text) ∧
    (¬w.Readable → '|' ∉ w.label → r.resolveAll w.text = []) ∧
    (r.resolveAll w.text = [.ok (w.descriptor r term w.label)] ↔ w.Readable ∧
      r.datatypes.canonical (labelled (collapse w.label)) =
        r.datatypes.canonical (labelled w.label)) ∧
    ∃ name, r.datatypes.canonical (labelled w.label) = some name ∧
      (w.more = [] → (w.descriptor r term w.label).destination.datatypes = [name]) ∧
      (w.more = [("literal" : Text)] → r.datatypes.canonical "literal" = some ("literal" : Text) →
        (w.descriptor r term w.label).destination.datatypes = [name, "literal"]) := by
  have hread : w.Readable →
      r.resolveAll w.text = [.ok (w.descriptor r term (collapse w.label))] := fun h => by
    rw [w.resolveAll_whole r h.tilde h.bar hterm, if_neg h.semicolon]
  have hnone : ¬w.Readable → '|' ∉ w.label → r.resolveAll w.text = [] := by
    intro h hbar
    by_cases htilde : Quote.after none w.field = some '"' → '~' ∉ w.label
    · have hsemicolon : ';' ∈ w.label := by
        by_contra hsemicolon
        exact h ⟨hsemicolon, hbar, htilde⟩
      rw [w.resolveAll_whole r htilde hbar hterm, if_pos hsemicolon]
    · exact w.resolveAll_tilde r htilde
  have hwritten : ¬w.Readable → ∀ d, .ok d ∈ r.resolveAll w.text →
      d.destination.written ≠ some w.text := by
    intro h d hd
    by_cases hbar : '|' ∈ w.label
    · exact w.written_bar r hbar d hd
    · rw [hnone h hbar] at hd
      cases hd
  refine ⟨hread, hwritten, hnone, ⟨fun h => ?_, fun ⟨h, hname⟩ => ?_⟩, ?_⟩
  · have hreadable : w.Readable := by
      by_contra hnot
      exact hwritten hnot _ (h ▸ List.mem_singleton_self _) rfl
    refine ⟨hreadable, (w.descriptor_collapse_iff r term).1 ?_⟩
    rw [hread hreadable] at h
    exact Except.ok.inj (List.singleton_inj.1 h)
  · rw [hread h, (w.descriptor_collapse_iff r term).2 hname]
  · obtain ⟨name, hname, hlist⟩ :=
      Labelled.exists_canonicalize r.datatypes w.label_trimmed w.label_ne
    refine ⟨customMark ++ name, hname, fun hmore => ?_, fun hmore hliteral => ?_⟩
    · show r.datatypes.canonicalize (labelled w.label :: w.more) = _
      rw [hlist, hmore]
      rfl
    · have hne : ("literal" : Text) ≠ customMark ++ name := fun h => by
        have hhead : some 'l' = some 'c' := congrArg List.head? h
        cases hhead
      have hrest : r.datatypes.canonicalize [("literal" : Text)] = [("literal" : Text)] := by
        rw [Datatypes.canonicalize, List.filterMap_cons, hliteral]
        rfl
      have hkept : [("literal" : Text)].filter (fun other => other != customMark ++ name) =
          [("literal" : Text)] :=
        List.filter_eq_self.2 (List.forall_mem_singleton.2 (bne_iff_ne.2 hne))
      show r.datatypes.canonicalize (labelled w.label :: w.more) = _
      rw [hlist, hmore, hrest, hkept]

/-- A label with marks of descriptors. -/
def markedLabel : Labelled where
  field := "dcterms:subject"
  label := "A ~ b @ § c"
  more := ["literal"]
  isField_field := by decide
  label_trimmed := by decide
  label_ne := by decide
  label_unquoted := forall_mem_of_all (by decide)
  more_plain := by decide

theorem resolveAll_labelled_marked :
    Resolver.resolveAll ⟨.dublinCoreAlone, false, []⟩
        "dcterms:subject ^^customvocab:\"A ~ b @ § c\";literal" =
      [.ok (markedLabel.descriptor ⟨.dublinCoreAlone, false, []⟩ "dcterms:subject"
        "A ~ b @ § c")] ∧
    (markedLabel.descriptor ⟨.dublinCoreAlone, false, []⟩ "dcterms:subject"
        "A ~ b @ § c").destination.datatypes = ["customvocab:A ~ b @ § c", "literal"] := by
  have hterm : Resolver.resolveField ⟨.dublinCoreAlone, false, []⟩ (cleanName markedLabel.field) =
      .ok "dcterms:subject" := by decide
  obtain ⟨-, -, -, hiff, name, hname, -, hliteral⟩ :=
    resolveAll_labelled ⟨.dublinCoreAlone, false, []⟩ markedLabel hterm
  have htext : ("dcterms:subject ^^customvocab:\"A ~ b @ § c\";literal" : Text) =
      markedLabel.text := by decide
  have hreadable : markedLabel.Readable := ⟨by decide, by decide, by decide⟩
  have hcollapse : collapse markedLabel.label = markedLabel.label := by decide
  have hcanonical : Datatypes.canonical (Resolver.datatypes ⟨.dublinCoreAlone, false, []⟩)
      (labelled markedLabel.label) = some ("customvocab:A ~ b @ § c" : Text) := by decide +kernel
  have hregistered : Datatypes.canonical (Resolver.datatypes ⟨.dublinCoreAlone, false, []⟩)
      "literal" = some ("literal" : Text) := by decide +kernel
  refine ⟨?_, ?_⟩
  · rw [htext]
    exact hiff.2 ⟨hreadable, by rw [hcollapse]⟩
  · obtain rfl := Option.some.inj (hname.symm.trans hcanonical)
    exact hliteral rfl hregistered

/-- A label with a semicolon is not read. -/
theorem semicolon_label_lost :
    (Resolver.resolveAll ⟨.dublinCoreAlone, false, []⟩
      "dcterms:subject ^^customvocab:\"a;b\"") = [] ∧
    Datatypes.canonical (Resolver.datatypes ⟨.dublinCoreAlone, false, []⟩)
      "customvocab:\"a;b\"" = some ("customvocab:a;b" : Text) := by
  decide +kernel

end Crosswalk
