import Crosswalk.Destination.Descriptor
import Crosswalk.Proofs.Outcome
import Crosswalk.Proofs.Text.Collapse
import Crosswalk.Proofs.Text.Replace

/-!
# Reading what descriptors write

Options that are written behind a field are read back, each with its mark
(`splitOptions?_options`). Datatypes are read back from both lists they may be written in, with
semicolons in a descriptor and with blanks in an attribute:

    Options.read? (optionsOf ds language visibility) = some ⟨language, ds, visibility⟩
                                                                              (read?_optionsOf)
    readDatatypes (joinWith [' '] ds) = ds                                    (readDatatypes_join)
-/

namespace Crosswalk

open Text

/-! ## Characters -/

/-- The marks of lines and descriptors, and the quote marks. -/
def marks : Text := "'\"=@§^~|"

def Unmarked (s : Text) : Prop := ∀ c ∈ s, c ∉ marks

/-- A character that an option may be written with. -/
def isOptionPart (c : Char) : Bool := isNamePart c || c == ';'

theorem isNamePart_of_isNameStart {c : Char} (h : isNameStart c = true) : isNamePart c = true := by
  have hword : isWord c = true := by
    simp only [isNameStart, Bool.or_eq_true, beq_iff_eq] at h
    simp only [isWord, isAsciiWord, Bool.or_eq_true, beq_iff_eq]
    exact .inl (h.elim (fun h => .inl (.inl h)) .inr)
  simp [isNamePart, hword]

theorem not_isBlank_of_isOptionPart {c : Char} (h : isOptionPart c = true) : isBlank c = false := by
  simp only [isOptionPart, isNamePart, Bool.or_eq_true, beq_iff_eq] at h
  rcases h with ((h | rfl) | rfl) | rfl
  · exact not_isBlank_of_isWord h
  all_goals decide

theorem not_mem_marks {c : Char} (h : isOptionPart c = true) : c ∉ marks := by
  have hmarks : ∀ d ∈ marks, isOptionPart d = false := forall_mem_of_all (by decide)
  intro hc
  rw [hmarks c hc] at h
  cases h

theorem isPlainName_parts {d : Text} (h : isPlainName d = true) :
    d ≠ [] ∧ ∀ c ∈ d, isNamePart c = true := by
  cases d with
  | nil => cases h
  | cons c s =>
    obtain ⟨hc, hs⟩ := Bool.and_eq_true_iff.1 h
    exact ⟨by simp, List.forall_mem_cons.2 ⟨isNamePart_of_isNameStart hc, List.all_eq_true.1 hs⟩⟩

theorem isOptionPart_of_mem_name {d : Text} (h : isPlainName d = true) {c : Char} (hc : c ∈ d) :
    isOptionPart c = true := by
  rw [isOptionPart, (isPlainName_parts h).2 c hc, Bool.true_or]

/-- The characters of language tags. -/
def isTagPart (c : Char) : Bool := isAsciiLetter c || isAsciiDigit c || c == '-'

theorem isOptionPart_of_isTagPart {c : Char} (h : isTagPart c = true) : isOptionPart c = true := by
  simp only [isTagPart, isAsciiDigit, Bool.or_eq_true, beq_iff_eq] at h
  rcases h with h | rfl
  · have hword : isWord c = true := by
      simp only [isWord, isAsciiWord, Bool.or_eq_true]
      exact .inl (.inl h)
    simp [isOptionPart, isNamePart, hword]
  · decide

theorem isTagPart_of_isLanguage {s : Text} (h : isLanguage s = true) :
    ∀ c ∈ s, isTagPart c = true := by
  obtain ⟨hall, -⟩ := Bool.and_eq_true_iff.1 h
  intro c hc
  rcases mem_cutsAt (p := (· == '-')) hc with hc | ⟨w, hw, hc⟩
  · obtain rfl : c = '-' := by simpa using hc
    decide
  · have hword := List.all_eq_true.1 (Bool.and_eq_true_iff.1 (List.all_eq_true.1 hall w hw)).2 c hc
    rw [isTagPart, hword, Bool.true_or]

theorem isLanguage_parts {s : Text} (h : isLanguage s = true) :
    s ≠ [] ∧ ∀ c ∈ s, isOptionPart c = true := by
  refine ⟨?_, fun c hc => isOptionPart_of_isTagPart (isTagPart_of_isLanguage h c hc)⟩
  rintro rfl
  revert h
  decide

theorem ne_of_not_mem_marks {c : Char} (h : c ∉ marks) :
    isQuoteMark c = false ∧ c ≠ '=' ∧ c ≠ '@' ∧ c ≠ '§' ∧ c ≠ '^' ∧ c ≠ '~' ∧ c ≠ '|' := by
  have hne : ∀ d ∈ marks, c ≠ d := by
    rintro d hd rfl
    exact h hd
  have hquote : isQuoteMark c = false := by
    rw [isQuoteMark, Bool.or_eq_false_iff, beq_eq_false_iff_ne, beq_eq_false_iff_ne]
    exact ⟨hne '\'' (by decide), hne '"' (by decide)⟩
  exact ⟨hquote, hne '=' (by decide), hne '@' (by decide), hne '§' (by decide),
    hne '^' (by decide), hne '~' (by decide), hne '|' (by decide)⟩

theorem not_isQuoteMark_of_mem_name {d : Text} (h : isPlainName d = true) {c : Char}
    (hc : c ∈ d) : isQuoteMark c = false :=
  (ne_of_not_mem_marks (not_mem_marks (isOptionPart_of_mem_name h hc))).1

/-! ## Fields -/

/-- The marks that no field has. -/
def fieldMarks : Text := "@§^~|"

theorem isField_iff {s : Text} : isField s = true ↔
    (∃ c t, s = c :: t ∧ isAsciiLetter c = true) ∧ ∀ c ∈ s, c ∉ fieldMarks := by
  have hmarks : ∀ d : Char, (d != '@' && d != '§' && d != '^' && d != '~' && d != '|') = true ↔
      d ∉ fieldMarks := by
    intro d
    simp [fieldMarks, and_assoc]
  cases s with
  | nil => simp [isField]
  | cons c t =>
    have hletter : isAsciiLetter c = true → c ∉ fieldMarks := by
      have hnone : ∀ d ∈ fieldMarks, isAsciiLetter d = false := forall_mem_of_all (by decide)
      intro hc hmem
      rw [hnone c hmem] at hc
      cases hc
    rw [isField, Bool.and_eq_true, List.all_eq_true]
    simp only [hmarks]
    constructor
    · rintro ⟨hc, ht⟩
      exact ⟨⟨c, t, rfl, hc⟩, List.forall_mem_cons.2 ⟨hletter hc, ht⟩⟩
    · rintro ⟨⟨d, u, h, hd⟩, hall⟩
      obtain ⟨rfl, rfl⟩ := List.cons.inj h
      exact ⟨hd, (List.forall_mem_cons.1 hall).2⟩

/-- A field is collapsed to a field. -/
theorem isField_collapse {s : Text} (h : isField s = true) : isField (collapse s) = true := by
  obtain ⟨⟨c, t, rfl, hc⟩, hall⟩ := isField_iff.1 h
  obtain ⟨u, hu⟩ := exists_collapse_cons (not_isBlank_of_isAsciiLetter hc) t
  refine isField_iff.2 ⟨⟨c, u, hu, hc⟩, fun d hd => ?_⟩
  rcases mem_collapse hd with rfl | ⟨hmem, -⟩
  · decide
  · exact hall d hmem

/-- Nothing is trimmed from a field with a text that ends without blanks. -/
theorem trim_field_append {field t : Text} (hfield : isField field = true) (u : Text)
    (ht : Trimmed isBlank t) (htne : t ≠ []) : trim (field ++ u ++ t) = field ++ u ++ t := by
  obtain ⟨⟨c, f, rfl, hc⟩, -⟩ := isField_iff.1 hfield
  have hstart : Trimmed isBlank [c] :=
    .of_forall (List.forall_mem_singleton.2 (not_isBlank_of_isAsciiLetter hc))
  have htrimmed := hstart.append (by simp) ht htne (f ++ u)
  have htext : [c] ++ (f ++ u) ++ t = c :: f ++ u ++ t := by simp
  rw [htext] at htrimmed
  exact htrimmed.trimOf_eq

/-! ## Options -/

/-- An option as it is written. -/
def optionText (o : OptionMark × Text) : Text := o.1.text ++ o.2

theorem cutMarks?_cons {c : Char} (h : c ∉ marks) (inOption : Bool) (s : Text) :
    cutMarks? none inOption (c :: s) = (cutMarks? none inOption s).map (Cut.cons c) := by
  obtain ⟨hquote, -, hat, hsection, hcaret, -, -⟩ := ne_of_not_mem_marks h
  rw [cutMarks?.eq_def]
  simp only [Option.isSome_none, hquote, Bool.false_and, Bool.false_eq_true, if_false, hat,
    hsection, hcaret]

theorem cutMarks?_unmarked {t : Text} (ht : Unmarked t) (inOption : Bool) (u : Text) :
    cutMarks? none inOption (t ++ u) =
      (cutMarks? none inOption u).map fun cut => (t ++ cut.1, cut.2) := by
  induction t with
  | nil => cases h : cutMarks? none inOption u <;> simp [h]
  | cons c t ih =>
    rw [List.cons_append, cutMarks?_cons (ht c List.mem_cons_self),
      ih fun d hd => ht d (List.mem_cons_of_mem c hd), Option.map_map]
    rfl

theorem cutMarks?_mark (m : OptionMark) (inOption : Bool) (u : Text) :
    cutMarks? none inOption (m.text ++ u) = (cutMarks? none true u).map (Cut.mark m) := by
  cases m with
  | datatype => rfl
  | language =>
    have htext : OptionMark.language.text ++ u = '@' :: u := rfl
    rw [htext, cutMarks?.eq_def]
    simp [isQuoteMark]
  | visibility =>
    have htext : OptionMark.visibility.text ++ u = '§' :: u := rfl
    rw [htext, cutMarks?.eq_def]
    simp [isQuoteMark]

/-- Options behind a field are cut off, each at its mark. -/
theorem cutMarks?_options {t : Text} (ht : Unmarked t) {os : List (OptionMark × Text)}
    (hos : ∀ o ∈ os, ∀ c ∈ o.2, isOptionPart c = true) (inOption : Bool) :
    ∃ cut, cutMarks? none inOption (t ++ spaced (os.map optionText)) = some cut ∧
      trim cut.1 = trim t ∧ cut.2.map (fun p => (p.1, trim p.2)) = os := by
  induction os generalizing t inOption with
  | nil => exact ⟨_, cutMarks?_unmarked ht inOption [], by simp, rfl⟩
  | cons o os ih =>
    have ho := hos o List.mem_cons_self
    obtain ⟨cut, hcut, hvalue, hrest⟩ := ih (t := o.2) (fun c hc => not_mem_marks (ho c hc))
      (fun o ho => hos o (List.mem_cons_of_mem _ ho)) true
    have htrim : trim o.2 = o.2 := trim_eq_self fun c hc => not_isBlank_of_isOptionPart (ho c hc)
    have htext : t ++ spaced ((o :: os).map optionText) =
        (t ++ [' ']) ++ (o.1.text ++ (o.2 ++ spaced (os.map optionText))) := by
      simp [spaced, optionText]
    have hblank : Unmarked (t ++ [' ']) := by
      intro c hc
      rcases List.mem_append.1 hc with hc | hc
      · exact ht c hc
      · rw [List.mem_singleton.1 hc]
        decide
    refine ⟨(t ++ [' '], (o.1, cut.1) :: cut.2), ?_, trim_append_blank t, ?_⟩
    · rw [htext, cutMarks?_unmarked hblank, cutMarks?_mark, hcut]
      simp [Cut.mark]
    · rw [List.map_cons, hrest, hvalue, htrim]

theorem splitOptions?_options {t : Text} (ht : Unmarked t) {os : List (OptionMark × Text)}
    (hos : ∀ o ∈ os, ∀ c ∈ o.2, isOptionPart c = true) :
    splitOptions? (t ++ spaced (os.map optionText)) = some (trim t, os) := by
  obtain ⟨cut, hcut, hfield, hoptions⟩ := cutMarks?_options ht hos false
  rw [splitOptions?, hcut, Option.map_some, hfield, hoptions]

/-! ## The options of a destination -/

/-- The options that stand for datatypes, a language and a visibility. -/
def optionsOf (datatypes : List Text) (language : Option Text) (visibility : Option Visibility) :
    List (OptionMark × Text) :=
  (if datatypes = [] then [] else [(.datatype, joinWith [';'] datatypes)]) ++
    (language.map fun s => (OptionMark.language, s)).toList ++
    (visibility.map fun v => (OptionMark.visibility, v.text)).toList

section
variable {datatypes : List Text} {language : Option Text} {visibility : Option Visibility}

theorem mem_joinWith {mark : Char} {parts : List Text} {c : Char}
    (h : c ∈ joinWith [mark] parts) : c = mark ∨ ∃ w ∈ parts, c ∈ w := by
  induction parts with
  | nil => cases h
  | cons w parts ih =>
    cases parts with
    | nil =>
      rw [joinWith_singleton] at h
      exact .inr ⟨w, List.mem_cons_self, h⟩
    | cons v parts =>
      rw [joinWith_cons _ _ (by simp), List.append_assoc, List.singleton_append] at h
      rcases List.mem_append.1 h with h | h
      · exact .inr ⟨w, List.mem_cons_self, h⟩
      · rcases List.mem_cons.1 h with h | h
        · exact .inl h
        · exact (ih h).imp_right fun ⟨u, hu, hc⟩ => ⟨u, List.mem_cons_of_mem w hu, hc⟩

theorem optionsOf_parts (hd : ∀ d ∈ datatypes, isPlainName d = true)
    (hl : ∀ s ∈ language, isLanguage s = true) :
    ∀ o ∈ optionsOf datatypes language visibility, ∀ c ∈ o.2, isOptionPart c = true := by
  intro o ho c hc
  rcases List.mem_append.1 ho with ho | ho
  · rcases List.mem_append.1 ho with ho | ho
    · split at ho
      · cases ho
      · rw [List.mem_singleton.1 ho] at hc
        rcases mem_joinWith hc with rfl | ⟨d, hmem, hc⟩
        · decide
        · exact isOptionPart_of_mem_name (hd d hmem) hc
    · obtain ⟨s, hs, rfl⟩ := Option.map_eq_some_iff.1 (Option.mem_toList.1 ho)
      exact (isLanguage_parts (hl s hs)).2 c hc
  · obtain ⟨v, -, rfl⟩ := Option.map_eq_some_iff.1 (Option.mem_toList.1 ho)
    have hall : ∀ v : Visibility, ∀ c ∈ v.text, isOptionPart c = true := by
      rintro (_ | _) <;> exact forall_mem_of_all (by decide)
    exact hall v c hc

/-- A datatype that stays as it is in a list with semicolons. -/
structure Listed (d : Text) : Prop where
  token : isDatatypeToken d = true
  trimmed : trim d = d
  single : ';' ∉ d

theorem Listed.ne_nil {d : Text} (h : Listed d) : d ≠ [] := by
  rintro rfl
  exact absurd h.token (by decide)

theorem listed_of_name {d : Text} (h : isPlainName d = true) : Listed d where
  token := by rw [isDatatypeToken, h, Bool.or_true]
  trimmed := trim_eq_self fun _ hc => not_isBlank_of_isOptionPart (isOptionPart_of_mem_name h hc)
  single hc := absurd ((isPlainName_parts h).2 _ hc) (by decide)

theorem tokens_join (hne : datatypes ≠ []) (hd : ∀ d ∈ datatypes, Listed d) :
    ((cutsAt (· == ';') (joinWith [';'] datatypes)).map trim).filter (· != []) = datatypes := by
  have hmark : ∀ d ∈ datatypes, ∀ c ∈ d, (c == ';') = false := fun d hmem c hc =>
    beq_false_of_ne (ne_of_mem_of_not_mem hc (hd d hmem).single)
  rw [cutsAt_joinWith (by decide) hne hmark,
    List.map_congr_left fun d hmem => (hd d hmem).trimmed, List.map_id']
  exact List.filter_eq_self.2 fun d hmem => by simpa using (hd d hmem).ne_nil

theorem add?_datatypes (hne : datatypes ≠ []) (hd : ∀ d ∈ datatypes, Listed d) (o : Options) :
    o.add? (.datatype, joinWith [';'] datatypes) = some { o with datatypes := datatypes } := by
  have htokens : datatypes.all isDatatypeToken = true :=
    List.all_eq_true.2 fun d hmem => (hd d hmem).token
  simp only [Options.add?, tokens_join hne hd, htokens, if_true]

theorem add?_language {s : Text} (hs : isLanguage s = true) (o : Options) :
    o.add? (.language, s) = some { o with language := some s } := by
  simp only [Options.add?, hs, or_true, if_true, nonBlank, if_neg (isLanguage_parts hs).1]

theorem add?_visibility (v : Visibility) (o : Options) :
    o.add? (.visibility, v.text) = some { o with visibility := some v } := by
  cases v <;> rfl

/-- A language and a visibility are read behind the datatypes. -/
theorem foldlM_behind (hl : ∀ s ∈ language, isLanguage s = true) (datatypes : List Text) :
    ((language.map fun s => (OptionMark.language, s)).toList ++
      (visibility.map fun v => (OptionMark.visibility, v.text)).toList).foldlM Options.add?
        ⟨none, datatypes, none⟩ = some ⟨language, datatypes, visibility⟩ := by
  have hlanguage : (language.map fun s => (OptionMark.language, s)).toList.foldlM Options.add?
      ⟨none, datatypes, none⟩ = some ⟨language, datatypes, none⟩ := by
    cases language with
    | none => rfl
    | some s =>
      rw [Option.map_some, Option.toList_some, List.foldlM_cons, add?_language (hl s rfl)]
      rfl
  have hvisibility : (visibility.map fun v => (OptionMark.visibility, v.text)).toList.foldlM
      Options.add? ⟨language, datatypes, none⟩ = some ⟨language, datatypes, visibility⟩ := by
    cases visibility with
    | none => rfl
    | some v =>
      rw [Option.map_some, Option.toList_some, List.foldlM_cons, add?_visibility]
      rfl
  rw [List.foldlM_append, hlanguage]
  exact hvisibility

theorem read?_optionsOf (hd : ∀ d ∈ datatypes, isPlainName d = true)
    (hl : ∀ s ∈ language, isLanguage s = true) :
    Options.read? (optionsOf datatypes language visibility) =
      some ⟨language, datatypes, visibility⟩ := by
  have hfirst : (if datatypes = [] then [] else
      [(OptionMark.datatype, joinWith [';'] datatypes)]).foldlM Options.add? Options.none =
        some ⟨none, datatypes, none⟩ := by
    split
    · next hnil => rw [hnil]; rfl
    · next hne =>
      rw [List.foldlM_cons, add?_datatypes hne fun d h => listed_of_name (hd d h)]
      rfl
  rw [Options.read?, optionsOf, List.append_assoc, List.foldlM_append, hfirst]
  exact foldlM_behind hl datatypes

/-! ## Datatypes between blanks -/

theorem datatypeLength?_name {d rest : Text} (hd : isPlainName d = true)
    (hquote : ∀ c ∈ rest, isQuoteMark c = false) (hrest : ∀ c ∈ rest.head?, isNamePart c = false) :
    datatypeLength? (d ++ rest) = some d.length := by
  have hunquoted : ∀ c ∈ d ++ rest, isQuoteMark c = false := by
    intro c hc
    rcases List.mem_append.1 hc with hc | hc
    · exact not_isQuoteMark_of_mem_name hd hc
    · exact hquote c hc
  have hlabel : (after? customMark (d ++ rest)).bind quotedLabelLength? = none := by
    cases hafter : after? customMark (d ++ rest) with
    | none => rfl
    | some label =>
      rw [Option.bind_some]
      cases label with
      | nil => rfl
      | cons q s =>
        have hq : isQuoteMark q = false := by
          refine hunquoted q ?_
          rw [after?_eq_some.1 hafter]
          simp
        simp [quotedLabelLength?, hq]
  obtain ⟨hne, hparts⟩ := isPlainName_parts hd
  obtain ⟨c, s, rfl⟩ := List.exists_cons_of_ne_nil hne
  have hstart : isNameStart c = true := (Bool.and_eq_true_iff.1 hd).1
  have hname : (s ++ rest).takeWhile isNamePart = s := by
    rw [List.takeWhile_append_of_pos fun d hd => hparts d (List.mem_cons_of_mem c hd)]
    cases rest with
    | nil => simp
    | cons e rest =>
      rw [List.takeWhile_cons_of_neg (by rw [hrest e rfl]; decide), List.append_nil]
  unfold datatypeLength?
  rw [hlabel]
  simp only [List.cons_append, hstart, if_true, hname, List.length_cons]
  rw [Nat.add_comm]

/-- A datatype at the head of a text. -/
def datatypeForm : Form Text := fun s => (datatypeLength? s).map fun n => (s.take n, n)

theorem readings_datatype {d rest : Text} (hd : isPlainName d = true)
    (hquote : ∀ c ∈ rest, isQuoteMark c = false) (hrest : ∀ c ∈ rest.head?, isNamePart c = false) :
    readings datatypeForm (d ++ rest) = d :: readings datatypeForm rest := by
  have hform : datatypeForm (d ++ rest) = some (d, d.length) := by
    rw [datatypeForm, datatypeLength?_name hd hquote hrest, Option.map_some, List.take_left]
  rw [readings, pieces_found (isPlainName_parts hd).1 hform]
  rfl

theorem readings_blank (s : Text) : readings datatypeForm (' ' :: s) = readings datatypeForm s := by
  have hmark : after? customMark (' ' :: s) = none := by
    cases h : after? customMark (' ' :: s) with
    | none => rfl
    | some label =>
      have hhead : customMark.head? = some 'c' := by decide
      have hc := congrArg List.head? (after?_eq_some.1 h)
      rw [List.head?_append, hhead] at hc
      cases hc
  have hform : reads datatypeForm (' ' :: s) = false := by
    have hstart : isNameStart ' ' = false := by decide
    simp [reads, datatypeForm, datatypeLength?, hmark, hstart]
  rw [readings, pieces_cons hform]
  rfl

theorem not_isQuoteMark_spaced (hd : ∀ d ∈ datatypes, isPlainName d = true) :
    ∀ c ∈ spaced datatypes, isQuoteMark c = false := by
  intro c hc
  obtain ⟨d, hmem, hc⟩ := List.mem_flatMap.1 hc
  rcases List.mem_cons.1 hc with rfl | hc
  · decide
  · exact not_isQuoteMark_of_mem_name (hd d hmem) hc

theorem head?_spaced (ws : List Text) : ∀ c ∈ (spaced ws).head?, c = ' ' := by
  cases ws with
  | nil => simp [spaced]
  | cons w ws => simp [spaced]

theorem readings_name {d : Text} {ds : List Text} (hd : isPlainName d = true)
    (hds : ∀ e ∈ ds, isPlainName e = true) :
    readings datatypeForm (d ++ spaced ds) = d :: readings datatypeForm (spaced ds) := by
  refine readings_datatype hd (not_isQuoteMark_spaced hds) fun c hc => ?_
  rw [head?_spaced ds c hc]
  decide

theorem readings_spaced {ds : List Text} (hd : ∀ d ∈ ds, isPlainName d = true) :
    readings datatypeForm (spaced ds) = ds := by
  induction ds with
  | nil => rfl
  | cons d ds ih =>
    obtain ⟨hd, hds⟩ := List.forall_mem_cons.1 hd
    have hspaced : spaced (d :: ds) = ' ' :: (d ++ spaced ds) := rfl
    rw [hspaced, readings_blank, readings_name hd hds, ih hds]

theorem readDatatypes_join {ds : List Text} (hd : ∀ d ∈ ds, isPlainName d = true) :
    readDatatypes (joinWith [' '] ds) = ds := by
  have hform : readDatatypes (joinWith [' '] ds) = readings datatypeForm (joinWith [' '] ds) := rfl
  rw [hform]
  cases ds with
  | nil => rfl
  | cons d ds =>
    obtain ⟨hd, hds⟩ := List.forall_mem_cons.1 hd
    rw [joinWith_eq_spaced, readings_name hd hds, readings_spaced hds]

end

/-! ## Building a destination -/

theorem Resolver.build_congr (r : Resolver) {f g : Text} {language tag : Option Text}
    (hfield : words f = words g) (hlanguage : language.bind nonBlank = tag.bind nonBlank)
    (datatypes : List Text) (visibility : Option Visibility) (written : Option Text) :
    r.build f datatypes language visibility written =
      r.build g datatypes tag visibility written := by
  unfold build
  rw [cleanName_congr hfield, hlanguage]

/-- The text of the descriptor is kept as it is given. -/
theorem Resolver.build_written (r : Resolver) (f : Text) (datatypes : List Text)
    (language : Option Text) (visibility : Option Visibility) (written : Option Text) :
    r.build f datatypes language visibility written =
      (r.build f datatypes language visibility none).map fun d =>
        { d with written := written } := by
  unfold build
  cases r.resolveField (cleanName f) <;> rfl

/-- A descriptor is built from its head, and keeps its pattern. -/
theorem Resolver.resolve_eq_some_iff {r : Resolver} {text : Text} {d : Descriptor} :
    r.resolve text = .ok (some d) ↔
      ∃ field o, readHead? (splitPattern (trim text)).1 = some (field, o) ∧
        r.build field o.datatypes o.language o.visibility (some (trim text)) =
          .ok d.destination ∧
        d.pattern = (splitPattern (trim text)).2.bind nonBlank := by
  constructor
  · intro h
    unfold resolve at h
    dsimp only at h
    split at h
    · cases h
    · next field o hhead =>
      obtain ⟨destination, hbuild, hd⟩ := map_eq_ok.1 h
      obtain rfl := Option.some.inj hd
      exact ⟨field, o, hhead, hbuild, rfl⟩
  · rintro ⟨field, o, hhead, hbuild, hpattern⟩
    unfold resolve
    simp only [hhead, hbuild, ← hpattern]
    rfl

end Crosswalk
