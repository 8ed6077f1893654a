import Crosswalk.Proofs.Destination.Descriptor
import Crosswalk.Proofs.Mapping.Separator

/-!
# Reading the line of an entry

A line that is written from the parts of an entry is read as that entry:

    (readLine r q false w.line).map unwritten = [w.entry r q]                   (readLine_line)

It is cut at its last `=` and its first `~` outside quotes. Since the quotes of a path are paired
and what stands behind it up to the pattern has none, both cuts find the marks that the line was
written with, whatever the path and the pattern hold. The head is then known by its words alone:
blanks are collapsed before the options are split off.
-/

namespace Crosswalk

open Text

/-! ## The parts of an entry -/

/-- What an entry says, where a line can say it: the path keeps its `~` inside quotes, and the field
has no mark that a line or a descriptor is cut at. -/
structure Parts where
  path : Text
  field : Text
  datatypes : List Text
  language : Option Text
  visibility : Option Visibility
  pattern : Option Text
  path_ne : path ≠ []
  path_trimmed : trim path = path
  path_paired : Quote.paired path = true
  path_unmarked : cutOutside? '~' path = none
  field_letter : field.head?.any isAsciiLetter = true
  field_unmarked : Unmarked field
  datatypes_plain : ∀ d ∈ datatypes, isPlainName d = true
  language_tag : ∀ s ∈ language, isLanguage s = true
  pattern_ne : ∀ s ∈ pattern, s ≠ []
  pattern_trimmed : ∀ s ∈ pattern, trim s = s

/-- A pattern behind its mark. -/
def tailText : Option Text → Text
  | none => []
  | some s => '~' :: ' ' :: s

namespace Parts

def options (w : Parts) : List (OptionMark × Text) :=
  optionsOf w.datatypes w.language w.visibility

/-- The field and its options: `field ^^d1;d2 @lang §vis`. -/
def head (w : Parts) : Text := w.field ++ spaced (w.options.map optionText)

/-- The field, its options and the pattern: `field ^^d1;d2 @lang §vis ~ pattern`. -/
def descriptor (w : Parts) : Text :=
  match w.pattern with
  | none => w.head
  | some s => w.head ++ ' ' :: tailText (some s)

def line (w : Parts) : Text := w.path ++ ' ' :: '=' :: ' ' :: w.descriptor

/-- The destination without the text of its descriptor. -/
def destination (w : Parts) (r : Resolver) : Except UnknownField Destination :=
  r.build w.field w.datatypes w.language w.visibility none

/-- The entry that the parts stand for, without the text of its descriptor. -/
def entry (w : Parts) (r : Resolver) (q : Querier) : Entry :=
  match w.destination r with
  | .ok d => .rule ⟨some ⟨q, w.path⟩, d, Template.compile? w.pattern⟩
  | .error e => .faulty (.unknownField e)

end Parts

/-- The entry without the text of its descriptor. -/
def Entry.unwritten : Entry → Entry
  | .rule r => .rule { r with destination := { r.destination with written := none } }
  | .faulty p => .faulty p

/-! ## Heads of descriptors -/

/-- Neither quotes nor a mark that a line or its descriptor is cut at. -/
def IsHead (s : Text) : Prop := ∀ c ∈ s, isQuoteMark c = false ∧ c ≠ '=' ∧ c ≠ '~' ∧ c ≠ '|'

section
variable {s t : Text}

theorem IsHead.append (hs : IsHead s) (ht : IsHead t) : IsHead (s ++ t) := by
  intro c hc
  exact (List.mem_append.1 hc).elim (hs c) (ht c)

theorem IsHead.free_equals (h : IsHead s) : Free '=' s := fun c hc => ⟨(h c hc).1, (h c hc).2.1⟩

theorem IsHead.free_tilde (h : IsHead s) : Free '~' s := fun c hc => ⟨(h c hc).1, (h c hc).2.2.1⟩

theorem isHead_of_unmarked (h : Unmarked s) : IsHead s := by
  intro c hc
  obtain ⟨hquote, hequals, -, -, -, htilde, hbar⟩ := ne_of_not_mem_marks (h c hc)
  exact ⟨hquote, hequals, htilde, hbar⟩

theorem isHead_blank : IsHead [' '] := by
  intro c hc
  rw [List.mem_singleton.1 hc]
  decide

theorem isHead_mark (m : OptionMark) : IsHead m.text := by
  cases m <;> exact forall_mem_of_all (by decide)

end

namespace Parts

variable (w : Parts)

theorem options_parts : ∀ o ∈ w.options, ∀ c ∈ o.2, isOptionPart c = true :=
  optionsOf_parts w.datatypes_plain w.language_tag

theorem isHead_head : IsHead w.head := by
  refine (isHead_of_unmarked w.field_unmarked).append fun c hc => ?_
  obtain ⟨t, ht, hc⟩ := List.mem_flatMap.1 hc
  obtain ⟨o, ho, rfl⟩ := List.mem_map.1 ht
  have hoption : IsHead (optionText o) := (isHead_mark o.1).append
    (isHead_of_unmarked fun c hc => not_mem_marks (w.options_parts o ho c hc))
  exact isHead_blank.append hoption c hc

theorem solid_options : ∀ t ∈ w.options.map optionText, Solid t := by
  intro t ht
  obtain ⟨o, ho, rfl⟩ := List.mem_map.1 ht
  have hmark : ∀ m : OptionMark, m.text ≠ [] ∧ ∀ c ∈ m.text, isBlank c = false := by
    rintro (_ | _ | _) <;> exact ⟨by decide, forall_mem_of_all (by decide)⟩
  refine ⟨fun h => (hmark o.1).1 (List.append_eq_nil_iff.1 h).1, fun c hc => ?_⟩
  rcases List.mem_append.1 hc with hc | hc
  · exact (hmark o.1).2 c hc
  · exact not_isBlank_of_isOptionPart (w.options_parts o ho c hc)

theorem exists_field : ∃ c s, w.field = c :: s ∧ isAsciiLetter c = true := by
  have h := w.field_letter
  cases hf : w.field with
  | nil => rw [hf] at h; cases h
  | cons c s => exact ⟨c, s, rfl, by rw [hf] at h; simpa using h⟩

/-- The descriptor as it is cut: what stands before the pattern has the words of the head. -/
theorem exists_body : ∃ (c : Char) (s b : Text), isAsciiLetter c = true ∧
    w.descriptor = (c :: s) ++ tailText w.pattern ++ b ∧ (∀ d ∈ b, isBlank d = true) ∧
    Trimmed isBlank ((c :: s) ++ tailText w.pattern) ∧ IsHead (c :: s) ∧
    words (c :: s) = words w.head := by
  obtain ⟨c, f, hf, hc⟩ := w.exists_field
  have hblank := not_isBlank_of_isAsciiLetter hc
  have hhead : w.head = c :: (f ++ spaced (w.options.map optionText)) := by rw [head, hf]; rfl
  cases hp : w.pattern with
  | none =>
    obtain ⟨t, b, htrim, hs, hb⟩ :=
      exists_trim_cons hblank (f ++ spaced (w.options.map optionText))
    have hbody : w.head = (c :: t) ++ b := by rw [hhead, hs]; rfl
    refine ⟨c, t, b, hc, ?_, hb, ?_, fun d hd => w.isHead_head d ?_, ?_⟩
    · rw [descriptor, hp, hbody]
      simp [tailText]
    · rw [tailText, List.append_nil, ← htrim]
      exact trimmed_trimOf isBlank _
    · rw [hbody]
      exact List.mem_append_left b hd
    · rw [hbody]
      exact (words_surrounded (a := []) (by simp) hb).symm
  | some u =>
    have hne := w.pattern_ne u hp
    have hu : Trimmed isBlank u := by
      rw [← w.pattern_trimmed u hp]
      exact trimmed_trimOf isBlank u
    have hbody : w.head ++ [' '] = c :: (f ++ spaced (w.options.map optionText) ++ [' ']) := by
      rw [hhead]
      rfl
    refine ⟨c, f ++ spaced (w.options.map optionText) ++ [' '], [], hc, ?_, by simp, ?_, ?_, ?_⟩
    · rw [descriptor, hp, ← hbody]
      simp
    · have hc' : Trimmed isBlank [c] := by
        refine .of_forall fun d hd => ?_
        rw [List.mem_singleton.1 hd, hblank]
      simpa [tailText] using hc'.append (by simp) hu hne
        (f ++ spaced (w.options.map optionText) ++ [' ', '~', ' '])
    · rw [← hbody]
      exact w.isHead_head.append isHead_blank
    · rw [← hbody]
      exact words_surrounded (a := []) (b := [' ']) (by simp) (forall_mem_of_all (by decide))

end Parts

/-! ## Cutting a line -/

section
variable {s body path : Text} {pattern : Option Text}

/-- A pattern is cut off behind a head. -/
theorem splitPattern_head (h : IsHead body) (hp : ∀ u ∈ pattern, trim u = u) :
    splitPattern (body ++ tailText pattern) = (body, pattern) := by
  rw [splitPattern_append h.free_tilde.sealed]
  cases pattern with
  | none => simp [tailText, splitPattern, cutOutside?, cutOutsideFrom?]
  | some u => simp [tailText, splitPattern, cutOutside?, cutOutsideFrom?, trim_blank_cons, hp u rfl]

theorem unassigned_tail (h : IsHead body) (hp : ∀ u ∈ pattern, trim u = u) :
    Unassigned (body ++ tailText pattern) := by
  unfold Unassigned
  rw [splitPattern_head h hp]
  exact h.free_equals.sealed.2

/-- A line with blanks at its end is cut into the path and what stands behind the mark. -/
theorem splitLine_line (hpath : cutOutside? '~' path = none)
    (hpaired : Quote.after none path = none) (hne : path ≠ []) (htrim : trim path = path)
    (h : IsHead body) (hbody : body ≠ []) (hp : ∀ u ∈ pattern, trim u = u)
    (hs : Trimmed isBlank (body ++ tailText pattern)) {b : Text}
    (hb : ∀ d ∈ b, isBlank d = true) :
    splitLine (path ++ ' ' :: '=' :: ' ' :: (body ++ tailText pattern ++ b)) =
      some ⟨path, body ++ tailText pattern, false⟩ := by
  have hsource : IsSource path :=
    ⟨hne, htrim, hpaired, (cutOutside?_eq_none_iff (by decide)).1 hpath⟩
  have hne' : body ++ tailText pattern ≠ [] := fun h => hbody (List.append_eq_nil_iff.1 h).1
  have hline : trim (path ++ ' ' :: '=' :: ' ' :: (body ++ tailText pattern ++ b)) =
      path ++ [' ', '=', ' '] ++ (body ++ tailText pattern) := by
    have hwhole : Trimmed isBlank (path ++ [' ', '=', ' '] ++ (body ++ tailText pattern)) :=
      hsource.trimmed_blank.append hne hs hne' _
    have := trimOf_surrounded (a := []) (by simp) hwhole hb
    simpa [trim] using this
  rw [← splitLine_trim, hline]
  exact splitLine_sourced hsource hs.trimOf_eq hne' (unassigned_tail h hp)

end

/-! ## Resolving a descriptor -/

namespace Resolver

/-- Without `|` a descriptor names one field. -/
theorem fanOut_tail {body : Text} {pattern : Option Text} (h : IsHead body)
    (hp : ∀ u ∈ pattern, trim u = u) :
    fanOut (body ++ tailText pattern) = [body ++ tailText pattern] := by
  have hbar : '|' ∉ body := fun hmem => (h '|' hmem).2.2.2 rfl
  simp [fanOut, splitPattern_head h hp, hbar]

end Resolver

namespace Parts

variable (w : Parts)

theorem words_field_ne : words w.field ≠ [] := by
  obtain ⟨c, s, hf, hc⟩ := w.exists_field
  obtain ⟨v, vs, hv⟩ := exists_words_cons (not_isBlank_of_isAsciiLetter hc) s
  rw [hf, hv]
  exact List.cons_ne_nil _ _

theorem unmarked_collapse : Unmarked (collapse w.field) := by
  intro c hc
  rcases mem_collapse hc with rfl | ⟨hc, -⟩
  · decide
  · exact w.field_unmarked c hc

theorem isField_field : isField w.field = true := by
  have hmarks : ∀ d ∈ fieldMarks, d ∈ marks := forall_mem_of_all (by decide)
  exact isField_iff.2 ⟨w.exists_field, fun c hc hmark => w.field_unmarked c hc (hmarks c hmark)⟩

theorem length_options : w.options.length ≤ maxOptions := by
  have hdatatypes : (if w.datatypes = [] then ([] : List (OptionMark × Text)) else
      [(.datatype, joinWith [';'] w.datatypes)]).length ≤ 1 := by
    split <;> simp
  have hlanguage : (w.language.map fun s => (OptionMark.language, s)).toList.length ≤ 1 := by
    cases w.language <;> simp
  have hvisibility :
      (w.visibility.map fun v => (OptionMark.visibility, v.text)).toList.length ≤ 1 := by
    cases w.visibility <;> simp
  rw [options, optionsOf, List.length_append, List.length_append, maxOptions]
  omega

/-- A text with the words of the head is read as the field with its options. -/
theorem readHead?_of_words {body : Text} (h : words body = words w.head) :
    Resolver.readHead? body =
      some (trim (collapse w.field), ⟨w.language, w.datatypes, w.visibility⟩) := by
  have hcollapse : collapse body = collapse w.field ++ spaced (w.options.map optionText) := by
    rw [collapse_congr h]
    exact collapse_append_spaced w.words_field_ne w.solid_options
  have hread : Options.read? w.options = some ⟨w.language, w.datatypes, w.visibility⟩ :=
    read?_optionsOf w.datatypes_plain w.language_tag
  unfold Resolver.readHead?
  rw [hcollapse, splitOptions?_options w.unmarked_collapse w.options_parts]
  simp only [Option.bind_some, trim_collapse, isField_collapse w.isField_field, w.length_options,
    decide_true, Bool.and_true, if_true, hread, Option.map_some]

variable (r : Resolver)

theorem resolve_tail {body : Text} (hhead : IsHead body) (hwords : words body = words w.head)
    (htrim : Trimmed isBlank (body ++ tailText w.pattern)) :
    r.resolve (body ++ tailText w.pattern) = (w.destination r).map fun d =>
      some ⟨{ d with written := some (body ++ tailText w.pattern) }, w.pattern⟩ := by
  have hfield : words (trim (collapse w.field)) = words w.field := by
    rw [words_trim, words_collapse]
  have hpattern : w.pattern.bind nonBlank = w.pattern := by
    cases hp : w.pattern with
    | none => rfl
    | some u => simp [nonBlank, w.pattern_ne u hp]
  have htrim' : trim (body ++ tailText w.pattern) = body ++ tailText w.pattern := htrim.trimOf_eq
  unfold Resolver.resolve
  simp only [htrim', splitPattern_head hhead w.pattern_trimmed, w.readHead?_of_words hwords,
    r.build_congr hfield rfl, hpattern]
  rw [r.build_written, destination]
  cases r.build w.field w.datatypes w.language w.visibility none <;> rfl

theorem written_of_destination {d : Destination} (h : w.destination r = .ok d) :
    d.written = none := by
  unfold destination Resolver.build at h
  cases hfield : r.resolveField (cleanName w.field) with
  | error e => rw [hfield] at h; cases h
  | ok term => rw [hfield] at h; cases h; rfl

/-- A descriptor gives one entry. -/
theorem entriesOf_tail {body : Text} (hhead : IsHead body) (hwords : words body = words w.head)
    (htrim : Trimmed isBlank (body ++ tailText w.pattern)) (q : Querier) :
    (entriesOf (some ⟨q, w.path⟩) (r.resolveAll (body ++ tailText w.pattern))).map
      Entry.unwritten = [w.entry r q] := by
  have hresolve := w.resolve_tail r hhead hwords htrim
  unfold Resolver.resolveAll
  rw [Resolver.fanOut_tail hhead w.pattern_trimmed, List.filterMap_cons, hresolve, entry]
  cases hd : w.destination r with
  | error e => rfl
  | ok d =>
    have hwritten := w.written_of_destination r hd
    simp [entriesOf, Except.map, Entry.unwritten, ← hwritten]

/-! ## Lines -/

theorem source_ne : w.path ≠ noSource := by
  intro h
  have hcut := w.path_unmarked
  rw [h] at hcut
  cases hcut

/-- A line gives the entry of its parts. -/
theorem readLine_line (q : Querier) :
    (readLine r q false w.line).map Entry.unwritten = [w.entry r q] := by
  obtain ⟨c, s, b, hc, hdescriptor, hb, htrim, hhead, hwords⟩ := w.exists_body
  have hpaired : Quote.after none w.path = none := Option.isNone_iff_eq_none.1 w.path_paired
  have hsplit : splitLine w.line = some ⟨w.path, (c :: s) ++ tailText w.pattern, false⟩ := by
    rw [line, hdescriptor]
    exact splitLine_line w.path_unmarked hpaired w.path_ne w.path_trimmed hhead (by simp)
      w.pattern_trimmed htrim hb
  have hquoted : isQuoted ((c :: s) ++ tailText w.pattern) = false := by
    simp [isQuoted, (hhead c List.mem_cons_self).1]
  have hentries := w.entriesOf_tail r hhead hwords htrim q
  have hne : (c :: s) ++ tailText w.pattern ≠ [] := List.cons_ne_nil _ _
  unfold readLine
  simp only [hsplit, hquoted, Bool.false_eq_true, if_false, if_neg w.path_ne, if_neg hne,
    beq_eq_false_iff_ne.2 w.source_ne, Bool.or_self]
  split
  · next hnil =>
    rw [hnil] at hentries
    cases hentries
  · exact hentries

end Parts

end Crosswalk
