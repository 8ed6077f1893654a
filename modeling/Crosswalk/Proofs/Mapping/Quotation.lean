import Crosswalk.Host.Bundled
import Crosswalk.Proofs.Mapping.Lines
import Crosswalk.Proofs.Mapping.Querier
import Crosswalk.Proofs.Mapping.Sections
import Crosswalk.Proofs.Record.Entries

/-!
# Texts between quotes

A text between quotes is written as it stands, whatever it holds. Both lines

    field = "text"        field ~ "text"

are read as one entry with this fixed text (`Quotation.readLine_eq`). A mapping with no other entry
writes it for every document, when its parameters have values:

    c.convert vars document =
      (c.resolveParams vars none).map fun _ => [(cleanName field, [trim text])]   (convert_quoted)
-/

namespace Crosswalk

open Text

/-- Without checking, every field is written under its own name. -/
theorem Resolver.exists_build {r : Resolver} (hr : r.checkField = false) (field : Text)
    (datatypes : List Text) (language : Option Text) (visibility : Option Visibility)
    (written : Option Text) :
    ∃ d, r.build field datatypes language visibility written = .ok d ∧
      d.field = cleanName field := by
  unfold build resolveField
  rw [hr]
  exact ⟨_, rfl, rfl⟩

/-! ## Quoted lines -/

/-- A field and a text between quotes. The field has no mark that a line or a descriptor is cut
at; the text has all marks but its own quote. -/
structure Quotation where
  field : Text
  quote : Char
  text : Text
  field_letter : field.head?.any isAsciiLetter = true
  field_unmarked : Unmarked field
  quote_mark : isQuoteMark quote = true
  text_open : quote ∉ text

namespace Quotation

variable (w : Quotation)

def quoted : Text := w.quote :: (w.text ++ [w.quote])

/-- `field = "text"` -/
def assigned : Text := w.field ++ ' ' :: '=' :: ' ' :: w.quoted

/-- `field ~ "text"` -/
def patterned : Text := w.field ++ ' ' :: tailText (some w.quoted)

theorem isBlank_quote : isBlank w.quote = false := by
  have h := w.quote_mark
  unfold isQuoteMark at h
  rcases Bool.or_eq_true_iff.1 h with h | h <;> rw [eq_of_beq h] <;> decide

theorem isQuoted_quoted : isQuoted w.quoted = true := by
  simp [isQuoted, quoted, w.quote_mark]

theorem trimmed_quoted : Trimmed isBlank w.quoted := by
  refine ⟨fun c hc => ?_, fun c hc => ?_⟩
  · rw [← Option.some.inj hc]
    exact w.isBlank_quote
  · have hlast : w.quoted.getLast? = some w.quote := by
      rw [quoted, ← List.cons_append, List.getLast?_append]
      rfl
    rw [hlast] at hc
    rw [← Option.some.inj hc]
    exact w.isBlank_quote

theorem trim_quoted : trim w.quoted = w.quoted := w.trimmed_quoted.trimOf_eq

theorem compile_quoted : Template.compile w.quoted = .ofRaw (trim w.text) := by
  have hunquote : unquote w.quoted = w.text := by
    rw [unquote, if_pos w.isQuoted_quoted, quoted, List.drop_one, List.tail_cons,
      List.dropLast_concat]
  have hne : w.quoted ≠ [] := List.cons_ne_nil _ _
  unfold Template.compile
  simp only [trim_quoted, hne, if_false, if_pos w.isQuoted_quoted, hunquote]

/-! ## The descriptor -/

/-- The entry with some path in the place of the text. -/
def parts : Parts where
  path := "x"
  field := w.field
  datatypes := []
  language := none
  visibility := none
  pattern := some w.quoted
  path_ne := by decide
  path_trimmed := by decide
  path_paired := by decide
  path_unmarked := by decide
  field_letter := w.field_letter
  field_unmarked := w.field_unmarked
  datatypes_plain := fun _ h => absurd h List.not_mem_nil
  language_tag := nofun
  pattern_ne := fun _ h => Option.some.inj h ▸ List.cons_ne_nil _ _
  pattern_trimmed := fun _ h => Option.some.inj h ▸ w.trim_quoted

theorem head_parts : w.parts.head = w.field := List.append_nil _

theorem isHead_field : IsHead w.field := isHead_of_unmarked w.field_unmarked

/-- What starts with a letter and ends with the text is trimmed. -/
theorem trimmed_letter {c : Char} (hc : isAsciiLetter c = true) (s : Text) :
    Trimmed isBlank (c :: (s ++ w.quoted)) := by
  have hfirst : Trimmed isBlank [c] := by
    refine .of_forall fun d hd => ?_
    rw [List.mem_singleton.1 hd, not_isBlank_of_isAsciiLetter hc]
  simpa using hfirst.append (List.cons_ne_nil _ _) w.trimmed_quoted (List.cons_ne_nil _ _) s

/-- A descriptor of the field and the text gives one entry, which has the text. -/
theorem entriesOf_quoted {r : Resolver} (hr : r.checkField = false) {body : Text}
    (hhead : IsHead body) (hwords : words body = words w.field)
    (hletter : ∃ c s, isAsciiLetter c = true ∧ body = c :: s) :
    ∃ d : Destination, d.field = cleanName w.field ∧
      entriesOf none (r.resolveAll (body ++ tailText (some w.quoted))) =
        [.rule ⟨none, d, .ofRaw (trim w.text)⟩] := by
  have htrim : Trimmed isBlank (body ++ tailText (some w.quoted)) := by
    obtain ⟨c, s, hc, rfl⟩ := hletter
    simpa [tailText] using w.trimmed_letter hc (s ++ ['~', ' '])
  obtain ⟨d, hd, hclean⟩ := Resolver.exists_build hr w.field [] none none none
  have hdestination : w.parts.destination r = .ok d := hd
  have hresolve := w.parts.resolve_tail r hhead
    (hwords.trans (congrArg words w.head_parts.symm)) htrim
  rw [hdestination] at hresolve
  have hall : r.resolveAll (body ++ tailText w.parts.pattern) =
      [.ok ⟨{ d with written := some (body ++ tailText w.parts.pattern) }, w.parts.pattern⟩] := by
    unfold Resolver.resolveAll
    rw [Resolver.fanOut_tail hhead w.parts.pattern_trimmed, List.filterMap_cons, hresolve]
    rfl
  have hpattern : Template.compile? w.parts.pattern = .ofRaw (trim w.text) := w.compile_quoted
  refine ⟨{ d with written := some (body ++ tailText w.parts.pattern) }, hclean,
    (congrArg (entriesOf none) hall).trans ?_⟩
  show [Entry.rule ⟨none, _, Template.compile? w.parts.pattern⟩] = _
  rw [hpattern]

/-! ## The two lines -/

theorem field_ne : w.field ≠ [] := by
  obtain ⟨c, s, hf, -⟩ := w.parts.exists_field
  have hfield : w.field = c :: s := hf
  rw [hfield]
  exact List.cons_ne_nil c s

/-- The text follows the field behind some mark. -/
theorem trim_marked (mark : Text) :
    trim (w.field ++ mark ++ w.quoted) = w.field ++ mark ++ w.quoted := by
  obtain ⟨c, s, hf, hc⟩ := w.parts.exists_field
  have hfield : w.field = c :: s := hf
  have hline : w.field ++ mark ++ w.quoted = c :: (s ++ mark ++ w.quoted) := by
    rw [hfield]
    rfl
  rw [hline]
  exact (w.trimmed_letter hc (s ++ mark)).trimOf_eq

theorem assigned_eq : w.assigned = w.field ++ [' ', '=', ' '] ++ w.quoted := by simp [assigned]

theorem patterned_eq : w.patterned = w.field ++ [' ', '~', ' '] ++ w.quoted := by
  simp [patterned, tailText]

/-- Neither mark stands outside the quotes. -/
theorem unassigned_quoted : Unassigned w.quoted := by
  have hpattern : cutOutside? '~' w.quoted = none :=
    cutOutside?_quoted w.quote_mark (by decide) w.text_open
  have hequals : cutLastOutside? '=' w.quoted = none :=
    cutLastOutside?_quoted w.quote_mark (by decide) w.text_open
  unfold Unassigned
  rw [splitPattern, hpattern]
  exact (cutLastOutside?_eq_none_iff (by decide)).1 hequals

/-- The mark of an assignment is the last one outside quotes. -/
theorem splitLine_assigned : splitLine w.assigned = some ⟨trim w.field, w.quoted, false⟩ := by
  have hsealed : Sealed '~' (w.field ++ [' ']) :=
    w.isHead_field.free_tilde.sealed.append sealed_blank
  have hshape : w.assigned = (w.field ++ [' ']) ++ '=' :: ' ' :: w.quoted := by simp [assigned]
  have htrim := w.trim_marked [' ', '=', ' ']
  rw [← assigned_eq, hshape] at htrim
  rw [hshape, splitLine_append hsealed (unassigned_blank.2 w.unassigned_quoted) htrim,
    trim_append_blank, trim_blank_cons, trim_quoted]

/-- Without an assignment outside quotes the line is a descriptor. -/
theorem splitLine_patterned : splitLine w.patterned = some ⟨noSource, w.patterned, true⟩ := by
  have htrim := w.trim_marked [' ', '~', ' ']
  rw [← patterned_eq] at htrim
  have hstart : startsWith noSource w.patterned = false :=
    startsWith_noSource_append w.isHead_field.free_tilde.sealed w.field_ne _
  have hshape : w.patterned = w.field ++ [' '] ++ tailText (some w.quoted) := by simp [patterned]
  refine splitLine_alone htrim hstart ?_
  rw [hshape]
  exact unassigned_tail (w.isHead_field.append isHead_blank) w.parts.pattern_trimmed

section

variable {r : Resolver} (hr : r.checkField = false) (q : Querier) (default : Bool)

include hr

/-- The right part is a fixed text for the field on the left. -/
theorem readLine_assigned : ∃ d : Destination, d.field = cleanName w.field ∧
    readLine r q default w.assigned = [.rule ⟨none, d, .ofRaw (trim w.text)⟩] := by
  obtain ⟨c, s, hf, hc⟩ := w.parts.exists_field
  have hfield : w.field = c :: s := hf
  obtain ⟨t, b, htrim, hs, -⟩ := exists_trim_cons (not_isBlank_of_isAsciiLetter hc) s
  have hsource : trim w.field = c :: t := by rw [hfield, htrim]
  have hhead : IsHead (trim w.field ++ [' ']) := by
    refine .append (fun d hd => w.isHead_field d ?_) isHead_blank
    rw [hsource] at hd
    rw [hfield, hs]
    exact (List.sublist_append_left (c :: t) b).subset hd
  have hwords : words (trim w.field ++ [' ']) = words w.field := by
    rw [words_append (by decide), words_trim]
    exact List.append_nil _
  have hletter : trim w.field ++ [' '] = c :: (t ++ [' ']) := by rw [hsource]; rfl
  obtain ⟨d, hd, hentries⟩ := w.entriesOf_quoted hr hhead hwords ⟨c, _, hc, hletter⟩
  have hdescriptor : trim w.field ++ " ~ ".toList ++ w.quoted =
      trim w.field ++ [' '] ++ tailText (some w.quoted) := by simp [tailText]
  refine ⟨d, hd, ?_⟩
  rw [← hdescriptor] at hentries
  have hsource_ne : trim w.field ≠ [] := by rw [hsource]; exact List.cons_ne_nil _ _
  have hquoted_ne : w.quoted ≠ [] := List.cons_ne_nil _ _
  unfold readLine
  simp only [splitLine_assigned, hsource_ne, hquoted_ne, isQuoted_quoted, if_true, if_false,
    Bool.or_true, Bool.true_or]
  split
  · next hnone =>
    rw [hnone] at hentries
    cases hentries
  · exact hentries

/-- The line is the descriptor of an entry without source. -/
theorem readLine_patterned : ∃ d : Destination, d.field = cleanName w.field ∧
    readLine r q default w.patterned = [.rule ⟨none, d, .ofRaw (trim w.text)⟩] := by
  obtain ⟨c, s, hf, hc⟩ := w.parts.exists_field
  have hhead : IsHead (w.field ++ [' ']) := w.isHead_field.append isHead_blank
  have hwords : words (w.field ++ [' ']) = words w.field := by
    rw [words_append (by decide)]
    exact List.append_nil _
  have hletter : w.field ++ [' '] = c :: (s ++ [' ']) := congrArg (· ++ [' ']) hf
  obtain ⟨d, hd, hentries⟩ := w.entriesOf_quoted hr hhead hwords ⟨c, _, hc, hletter⟩
  have hdescriptor : w.patterned = w.field ++ [' '] ++ tailText (some w.quoted) := by
    simp [patterned]
  refine ⟨d, hd, ?_⟩
  rw [← hdescriptor] at hentries
  have hstart : w.patterned = c :: (s ++ [' '] ++ tailText (some w.quoted)) := by
    rw [hdescriptor, hletter]
    rfl
  have hline_ne : w.patterned ≠ [] := by rw [hstart]; exact List.cons_ne_nil _ _
  have hletter_plain : isQuoteMark c = false :=
    (hhead c (by rw [hletter]; exact List.mem_cons_self)).1
  have hplain : isQuoted w.patterned = false := by
    rw [hstart, isQuoted, hletter_plain]
    rfl
  have hsource_ne : noSource ≠ [] := by decide
  unfold readLine
  simp only [splitLine_patterned, hsource_ne, hline_ne, hplain, if_true, if_false,
    Bool.or_true, Bool.true_or, Bool.false_eq_true]
  split
  · next hnone =>
    rw [hnone] at hentries
    cases hentries
  · exact hentries

/-- **Both lines are one entry** that has the text, whatever it holds. -/
theorem readLine_eq {line : Text} (hline : line = w.assigned ∨ line = w.patterned) :
    ∃ d : Destination, d.field = cleanName w.field ∧
      readLine r q default line = [.rule ⟨none, d, .ofRaw (trim w.text)⟩] := by
  rcases hline with rfl | rfl
  · exact w.readLine_assigned hr q default
  · exact w.readLine_patterned hr q default

end

end Quotation

/-! ## Mappings of one entry -/

/-- The lines of the entries that a text has for every document. -/
def entryLines (text : Text) : List Text :=
  linesUnder .default (stretches text) ++ linesUnder .mapping (stretches text)

namespace Config

variable {c : Config}

/-- A mapping whose only entry has a fixed text writes it. -/
theorem convert_fixed [Host] {d : Destination} {s : Text}
    (h : c.default ++ c.mapping = [.rule ⟨none, d, .ofRaw s⟩]) (vars : Pairs Text Value)
    (document : SourceDocument) :
    c.convert vars document = (c.resolveParams vars none).map fun _ => [(d.field, [s])] := by
  have hbuild : ∀ start, c.build.run' start = .ok [(d.field, [s])] := by
    intro start
    rw [run'_build_eq]
    rcases List.append_eq_singleton_iff.1 h with ⟨hd, hm⟩ | ⟨hd, hm⟩ <;> rw [hd, hm] <;> rfl
  unfold convert
  cases c.resolveParams vars none with
  | error e => rfl
  | ok params => exact hbuild _

/-- Parameters that are no templates have their values. -/
theorem exists_resolveFrom [Host] {document : Option SourceDocument} {params : Pairs Text Param}
    (h : ∀ name m, (name, Param.template m) ∉ params) (vs : Variables) :
    ∃ ps, c.resolveFrom document vs params = .ok ps := by
  induction params generalizing vs with
  | nil => exact ⟨[], rfl⟩
  | cons p params ih =>
    obtain ⟨name, p⟩ := p
    have hvalue : c.resolveParam document vs p = .ok p.value := by
      cases p with
      | template m => exact absurd List.mem_cons_self (h name m)
      | bool b => rfl
      | text s => rfl
      | null => rfl
    obtain ⟨ps, hps⟩ := ih (fun n m hmem => h n m (List.mem_cons_of_mem _ hmem))
      (vs.put name p.value.variableText?)
    exact ⟨_, by rw [resolveFrom_cons, hvalue, Except.bind, hps]; rfl⟩

/-- Composition keeps the rules of both mappings. -/
theorem rule_mem_distinctOn {r : Rule} {es : List Entry} (h : .rule r ∈ es) :
    .rule r ∈ distinctOn Entry.written es := by
  have hparts : (Entry.rule r).parts ∈ (distinctOn Entry.written es).map Entry.parts := by
    rw [distinctOn_written, map_distinctOn, mem_distinct]
    exact List.mem_map_of_mem h
  obtain ⟨e, he, hsame⟩ := List.mem_map.1 hparts
  cases e with
  | faulty p => exact absurd (congrArg Entry.Parts.error hsame) nofun
  | rule r' =>
    obtain ⟨source, d, m⟩ := r
    obtain ⟨source', d', m'⟩ := r'
    cases hsame
    exact he

theorem exists_readLines (r : Resolver) (name : Option Text) (items : List Item) :
    ∃ q, (ofItems r name items).default = readLines r q true (linesOf .default items) ∧
      (ofItems r name items).mapping = readLines r q false (linesOf .mapping items) :=
  ⟨_, rfl, rfl⟩

end Config

namespace Loader

variable {l : Loader} {p : Page} {bases : Nat} {c : Config} {line : Text}

/-- Blanks around a text in lines say nothing. -/
theorem written_lines [Host] (hp : p.isMarkup = false) (hne : contentLines p.text ≠ []) :
    l.written p = .ofItems l.resolver p.name (itemsOf p.text) := by
  have hitems : itemsOf (trim p.text) = itemsOf p.text :=
    congrArg (itemsFrom none) (contentLines_trim p.text)
  have htext : trim p.text ≠ [] := by
    intro hnil
    rw [← contentLines_trim, hnil] at hne
    exact hne rfl
  unfold written
  rw [if_neg htext, hp, ← hitems]
  rfl

/-- The entries of a text in lines that has the line of one entry. -/
theorem written_only [Host] (hp : p.isMarkup = false) (honly : entryLines p.text = [line]) :
    ∃ q default, (l.written p).default ++ (l.written p).mapping =
      readLine l.resolver q default line := by
  have hne : contentLines p.text ≠ [] := by
    intro hnil
    rw [entryLines, stretches, hnil] at honly
    cases honly
  have hlines : ∀ s, linesOf s (itemsOf p.text) = linesUnder s (stretches p.text) := by
    intro s
    rw [itemsOf_eq, linesOf_items]
  obtain ⟨q, hdefault, hmapping⟩ := Config.exists_readLines l.resolver p.name (itemsOf p.text)
  rw [written_lines hp hne, hdefault, hmapping, hlines, hlines]
  rcases List.append_eq_singleton_iff.1 honly with ⟨hd, hm⟩ | ⟨hd, hm⟩ <;> rw [hd, hm]
  · exact ⟨q, false, List.append_nil _⟩
  · exact ⟨q, true, (List.append_nil _).trans (List.append_nil _)⟩

/-- The rules of a text in lines stay in what is loaded. -/
theorem Built.mem_of_written [Host] (h : Built l bases p c) (hp : p.isMarkup = false) {r : Rule}
    (hr : .rule r ∈ (l.written p).default ++ (l.written p).mapping) :
    .rule r ∈ c.default ++ c.mapping := by
  rcases h.of_plain hp with ⟨_, rfl⟩ | ⟨base, rfl⟩
  · exact hr
  · refine List.mem_append.2 ((List.mem_append.1 hr).imp ?_ ?_) <;>
      exact fun hr => Config.rule_mem_distinctOn (List.mem_append_right _ hr)

/-- **A text between quotes** is written as it stands by a mapping that has no other entry,
whatever the document is, when the parameters have values. -/
theorem convert_quoted [Host] (l : Loader) (hcheck : l.resolver.checkField = false) (w : Quotation)
    (name fallback : Option Text) {text line : Text} (hp : startsWith ['<'] (trim text) = false)
    (hline : line = w.assigned ∨ line = w.patterned) (honly : entryLines text = [line]) :
    (mapper? (l.written ⟨name, fallback, text⟩) = none →
      ∃ c, l.load name fallback text = .ok c ∧ (c.default ++ c.mapping).length = 1) ∧
    ∀ c, l.load name fallback text = .ok c → (c.default ++ c.mapping).length = 1 →
      ∀ vars document,
        c.convert vars document = (c.resolveParams vars none).map
          (fun _ => [(cleanName w.field, [trim w.text])]) ∧
        ((∀ name m, (name, Param.template m) ∉ c.params) →
          c.convert vars document = .ok [(cleanName w.field, [trim w.text])]) := by
  have hplain : Page.isMarkup ⟨name, fallback, text⟩ = false := hp
  obtain ⟨q, default, hwritten⟩ := written_only (l := l) hplain honly
  obtain ⟨d, hfield, hread⟩ := w.readLine_eq hcheck q default hline
  rw [hread] at hwritten
  refine ⟨fun hm => ⟨_, within_eq_ok.2 (.single (alone_plain hplain) hm), ?_⟩, ?_⟩
  · rw [hwritten]
    rfl
  · intro c hload hone vars document
    have hmem : .rule ⟨none, d, .ofRaw (trim w.text)⟩ ∈ c.default ++ c.mapping := by
      refine (within_eq_ok (p := ⟨name, fallback, text⟩).1 hload).mem_of_written hplain ?_
      rw [hwritten]
      exact List.mem_singleton_self _
    obtain ⟨e, he⟩ := List.length_eq_one_iff.1 hone
    rw [he, List.mem_singleton] at hmem
    rw [← hmem] at he
    have hconvert := Config.convert_fixed he vars document
    rw [hfield] at hconvert
    refine ⟨hconvert, fun hparams => ?_⟩
    obtain ⟨ps, hps⟩ : ∃ ps, c.resolveParams vars none = .ok ps :=
      Config.exists_resolveFrom hparams (.ofPairs vars)
    rw [hconvert, hps]
    rfl

/-- Marks of all kinds and the other quote, between double quotes. -/
def markedTitle : Quotation where
  field := "dcterms :title "
  quote := '"'
  text := " a = 'b' ~ \x7b\x7b x \x7d\x7d | c^d @fra ;e "
  field_letter := by decide
  field_unmarked := forall_mem_of_all (by decide)
  quote_mark := by decide
  text_open := by decide

/-- A mapping with comments, a parameter and the line of a title. -/
def titled (line : Text) : Text :=
  "; a title\n[mapping]\n\n  " ++ line ++ "\n[params]\np = 1\n"

theorem convert_quoted_marked : ∃ c,
    bareLoader.load none none (titled markedTitle.patterned) = .ok c ∧
      ∀ document, c.convert [] document =
        .ok [("dcterms:title", ["a = 'b' ~ \x7b\x7b x \x7d\x7d | c^d @fra ;e"])] := by
  have hp : startsWith ['<'] (trim (titled markedTitle.patterned)) = false := by decide +kernel
  have honly : entryLines (titled markedTitle.patterned) = [markedTitle.patterned] := by
    decide +kernel
  have hm : mapper? (bareLoader.written ⟨none, none, titled markedTitle.patterned⟩) = none := by
    decide +kernel
  have hquoted := bareLoader.convert_quoted rfl markedTitle none none hp (.inr rfl) honly
  obtain ⟨c, hc, hone⟩ := hquoted.1 hm
  have hparams : (bareLoader.load none none (titled markedTitle.patterned)).map Config.params =
      .ok [("p", .text "1")] := by decide +kernel
  rw [hc] at hparams
  have hplain : ∀ name m, (name, Param.template m) ∉ c.params := by
    intro name m hmem
    rw [Except.ok.inj hparams] at hmem
    cases List.mem_singleton.1 hmem
  have hclean : cleanName markedTitle.field = "dcterms:title" ∧
      trim markedTitle.text = "a = 'b' ~ \x7b\x7b x \x7d\x7d | c^d @fra ;e" := by decide +kernel
  refine ⟨c, hc, fun document => ((hquoted.2 c hc hone [] document).2 hplain).trans ?_⟩
  rw [hclean.1, hclean.2]

/-- A text between quotes, and a parameter that a filter cannot compute. -/
def besideNumber : Text :=
  "[params]\na = ~ \x7b\x7b x|abs \x7d\x7d\n[default]\ndcterms:title = \"s\""

/-- Only such a parameter stops the conversion. -/
theorem quoted_beside_stopped : ∃ c, bareLoader.load none none besideNumber = .ok c ∧
    c.convert [("x", .str "1")] (.data .null) = .ok [("dcterms:title", ["s"])] ∧
    c.convert [("x", .str "inf")] (.data .null) = .error (.notWhole (.numeral "inf")) := by
  have hload : bareLoader.load none none besideNumber =
      .ok (.ofLines bareLoader.resolver none besideNumber) := by decide +kernel
  exact ⟨_, hload, by decide +kernel, by decide +kernel⟩

end Loader
end Crosswalk
