import Crosswalk.Host.Bundled
import Crosswalk.Proofs.Record.Entries

/-!
# Documents that cannot be read

A document that the backend of a querier cannot read has no match for the entries that read with
it; they may as well be left out of the mapping:

    Backend.ofDocument q document columns = .error fault →
      c.convert vars document = (c.withoutReaders q).convert vars document  (convert_withoutReaders)

No conversion stops there (`convert_ne_backend`). Templated parameters do, when they are resolved
or read on their own with such a document (`resolveParams_eq_backend_iff`,
`settingText_eq_backend_iff`), since their backend is opened before they are looked at.
-/

namespace Crosswalk

open Text

/-! ## What stops by a filter alone -/

/-- A part of a conversion that stops, if it does, since a filter met no whole number. -/
def StopsByFilter {α : Type} (x : Converted α) : Prop := ∀ e, x = .error e → ∃ why, e = .notWhole why

namespace StopsByFilter

variable {α β : Type} {x : Converted α}

theorem ok (a : α) : StopsByFilter (.ok a : Converted α) := nofun

theorem ne_backend (h : StopsByFilter x) (fault : BackendFault) : x ≠ .error (.backend fault) := by
  intro hx
  obtain ⟨why, hwhy⟩ := h _ hx
  cases hwhy

theorem map (h : StopsByFilter x) (f : α → β) : StopsByFilter (x.map f) := by
  intro e he
  cases x with
  | error e' => exact h e (congrArg _ (Except.error.inj he))
  | ok a => cases he

theorem bind (h : StopsByFilter x) {f : α → Converted β} (hf : ∀ a, StopsByFilter (f a)) :
    StopsByFilter (x.bind f) := by
  intro e he
  cases x with
  | error e' => exact h e (congrArg _ (Except.error.inj he))
  | ok a => exact hf a e he

theorem mapM {f : α → Converted β} (hf : ∀ a, StopsByFilter (f a)) (xs : List α) :
    StopsByFilter (xs.mapM f) := by
  induction xs with
  | nil => exact .ok []
  | cons a xs ih =>
    rw [List.mapM_cons]
    exact (hf a).bind fun b => ih.bind fun bs => .ok (b :: bs)

theorem foldlM {f : β → α → Converted β} (hf : ∀ b a, StopsByFilter (f b a)) (b : β) (xs : List α) :
    StopsByFilter (xs.foldlM f b) := by
  induction xs generalizing b with
  | nil => exact .ok b
  | cons a xs ih =>
    rw [List.foldlM_cons]
    exact (hf b a).bind fun b' => ih b'

end StopsByFilter

/-! ## Entries -/

namespace Rule

variable {r : Rule} {start : Shared}

theorem stopsByFilter_evaluate [Host] (m : Modifier) (subject : Subject) (context : Context)
    (lookup : Lookup) (asXml : Bool) : StopsByFilter (evaluate m subject context lookup asXml) := by
  intro e he
  unfold evaluate at he
  cases h : m.evaluate subject context lookup asXml with
  | ok o => rw [h] at he; cases he
  | error why =>
    rw [h] at he
    exact ⟨why, (Except.error.inj he).symm⟩

theorem stopsByFilter_defaultValues [Host] (r : Rule) (start : Shared) :
    StopsByFilter (r.defaultValues.run' start) := by
  rw [run'_defaultValues]
  exact (stopsByFilter_evaluate _ _ _ _ _).map _

theorem stopsByFilter_values [Host] (r : Rule) (start : Shared) :
    StopsByFilter (r.values.run' start) := by
  unfold Rule.values
  split
  · rw [run'_sourceValues]
    refine .map ?_ _
    unfold occurrences
    split
    · exact .ok []
    · exact (StopsByFilter.mapM (fun _ => stopsByFilter_evaluate _ _ _ _ _) _).map _
  · exact r.stopsByFilter_defaultValues start

/-- A source that cannot be opened gives nothing. -/
theorem run'_sourceValues_of_error [Host] {source : Source} {fault : BackendFault}
    (h : start.queries.open? source.querier = .error fault) :
    (r.sourceValues source).run' start = .ok [] := by
  rw [run'_sourceValues]
  unfold occurrences
  rw [h]
  rfl

end Rule

namespace Entry

/-- Whether the entry reads the document with this querier. -/
def readsWith (q : Querier) : Entry → Bool
  | .rule r => r.modifier.raw.isNone && r.source.any fun s => s.querier == q
  | .faulty _ => false

variable {e : Entry} {start : Shared}

theorem stopsByFilter_defaultValues [Host] (e : Entry) (start : Shared) :
    StopsByFilter (e.defaultValues.run' start) := by
  cases e with
  | rule r => exact r.stopsByFilter_defaultValues start
  | faulty p => exact .ok []

theorem stopsByFilter_values [Host] (e : Entry) (start : Shared) :
    StopsByFilter (e.values.run' start) := by
  cases e with
  | rule r => exact r.stopsByFilter_values start
  | faulty p => exact .ok []

theorem run'_values_of_readsWith [Host] {q : Querier} {fault : BackendFault}
    (h : start.queries.open? q = .error fault) (he : e.readsWith q = true) :
    e.values.run' start = .ok [] := by
  cases e with
  | faulty p => cases he
  | rule r =>
    obtain ⟨hraw, hsource⟩ := Bool.and_eq_true_iff.1 he
    obtain ⟨s, hs, hq⟩ := Option.any_eq_true _ _ |>.1 hsource
    obtain rfl := eq_of_beq hq
    have hvalues : (rule r).values = r.sourceValues s := by
      show r.values = _
      unfold Rule.values
      rw [Option.isNone_iff_eq_none.1 hraw, hs]
    rw [hvalues]
    exact Rule.run'_sourceValues_of_error h

end Entry

namespace Config

variable {c : Config} {vars : Pairs Text Value} {start : Shared}

/-! ## Records -/

/-- The mapping without the entries that read the document with a querier. The entries of `default`
read nothing. -/
def withoutReaders (c : Config) (q : Querier) : Config :=
  { c with mapping := c.mapping.filter fun e => !e.readsWith q }

theorem run'_build_withoutReaders [Host] {q : Querier} {fault : BackendFault}
    (h : start.queries.open? q = .error fault) (c : Config) :
    (c.withoutReaders q).build.run' start = c.build.run' start := by
  have hfold : ∀ (es : List Entry) (record : Record),
      (es.filter fun e => !e.readsWith q).foldlM (writeGiven start Entry.values) record =
        es.foldlM (writeGiven start Entry.values) record := by
    intro es
    induction es with
    | nil => exact fun _ => rfl
    | cons e es ih =>
      intro record
      cases he : e.readsWith q with
      | false =>
        rw [List.filter_cons_of_pos (by rw [he]; rfl), List.foldlM_cons, List.foldlM_cons]
        simp only [ih]
      | true =>
        have hnone : writeGiven start Entry.values record e = .ok record := by
          rw [writeGiven, Entry.run'_values_of_readsWith h he]
          rfl
        rw [List.filter_cons_of_neg (by rw [he]; decide), ih, List.foldlM_cons, hnone]
        rfl
  rw [run'_build_eq, run'_build_eq]
  exact congrArg _ (funext fun record => hfold c.mapping record)

/-- Columns do not matter to whether a document can be read. -/
theorem open?_start_of_error [Host] {q : Querier} {document : SourceDocument} {columns : Columns}
    {fault : BackendFault} (h : Backend.ofDocument q document columns = .error fault)
    (params vars : Pairs Text Value) :
    (c.start params vars document).queries.open? q = .error fault := by
  have hcolumns : Backend.ofDocument q document (columnsOf params) = .error fault := by
    cases q with
    | jsdot => cases h
    | jmespath => cases h
    | jsonpath => cases h
    | xpath => exact h
  show (Backend.ofDocument q document (columnsOf params)).map _ = _
  rw [hcolumns]
  rfl

theorem convert_withoutReaders [Host] {q : Querier} {document : SourceDocument} {columns : Columns}
    {fault : BackendFault} (h : Backend.ofDocument q document columns = .error fault) (c : Config)
    (vars : Pairs Text Value) :
    c.convert vars document = (c.withoutReaders q).convert vars document := by
  have hsame : SameSettings c (c.withoutReaders q) := ⟨rfl, rfl, rfl⟩
  unfold convert
  rw [hsame.resolveParams]
  refine bind_congr_ok fun params _ => ?_
  rw [hsame.start, run'_build_withoutReaders (open?_start_of_error h params vars)]

/-! ## Parameters and settings -/

/-- There is a document, and the backend of the mapping cannot read it. -/
def CannotRead [Host] (c : Config) (document : Option SourceDocument) (fault : BackendFault) :
    Prop :=
  ∃ d, document = some d ∧ Backend.ofDocument c.querier d .none = .error fault

variable {document : Option SourceDocument} {fault : BackendFault}

theorem paramLookup_eq_backend_iff [Host] :
    c.paramLookup document = .error (.backend fault) ↔ c.CannotRead document fault := by
  unfold paramLookup CannotRead
  cases document with
  | none => simp
  | some d =>
    dsimp only
    cases h : Backend.ofDocument c.querier d .none with
    | ok b => simp [h]
    | error fault' => simp [h]

/-- What comes after the backend is opened stops by a filter alone. -/
theorem bind_eq_backend_iff {α β : Type} {x : Converted α} {f : α → Converted β}
    (hf : ∀ a, StopsByFilter (f a)) :
    x.bind f = .error (.backend fault) ↔ x = .error (.backend fault) := by
  cases x with
  | error e => simp [Except.bind]
  | ok a => exact iff_of_false ((hf a).ne_backend fault) nofun

theorem resolveParam_eq_backend_iff [Host] {vs : Variables} {m : Modifier} :
    c.resolveParam document vs (.template m) = .error (.backend fault) ↔
      c.CannotRead document fault :=
  (bind_eq_backend_iff fun _ => (Rule.stopsByFilter_evaluate _ _ _ _ _).bind fun _ => .ok _).trans
    paramLookup_eq_backend_iff

theorem resolveFrom_eq_backend_iff [Host] {vs : Variables} {params : Pairs Text Param} :
    c.resolveFrom document vs params = .error (.backend fault) ↔
      c.CannotRead document fault ∧ ∃ name m, (name, Param.template m) ∈ params := by
  -- The variables vary: each parameter joins them for the ones behind it.
  induction params generalizing vs with
  | nil => simp [resolveFrom]
  | cons p params ih =>
    obtain ⟨name, p⟩ := p
    have hpass : ∀ v, c.resolveParam document vs p = .ok v →
        (c.resolveFrom document vs ((name, p) :: params) = .error (.backend fault) ↔
          c.CannotRead document fault ∧ ∃ name m, (name, Param.template m) ∈ params) := by
      intro v hv
      rw [← @ih (vs.put name v.variableText?), resolveFrom_cons, hv]
      show (c.resolveFrom document (vs.put name v.variableText?) params).map _ = _ ↔ _
      cases c.resolveFrom document (vs.put name v.variableText?) params <;> simp [Except.map]
    have hplain : (∀ m, p ≠ .template m) → c.resolveParam document vs p = .ok p.value := by
      intro hp
      cases p with
      | template m => exact absurd rfl (hp m)
      | bool b => rfl
      | text s => rfl
      | null => rfl
    by_cases hp : ∀ m, p ≠ .template m
    · rw [hpass _ (hplain hp)]
      refine and_congr_right fun _ => ⟨?_, ?_⟩
      · rintro ⟨n, m, h⟩
        exact ⟨n, m, List.mem_cons_of_mem _ h⟩
      · rintro ⟨n, m, h⟩
        rcases List.mem_cons.1 h with h | h
        · exact absurd (Prod.mk.inj h).2.symm (hp m)
        · exact ⟨n, m, h⟩
    · obtain ⟨m, rfl⟩ := not_forall_not.1 hp
      have hmem : ∃ n m', (n, Param.template m') ∈ (name, Param.template m) :: params :=
        ⟨name, m, List.mem_cons_self⟩
      have hparam : c.resolveParam document vs (.template m) = .error (.backend fault) ↔
          c.CannotRead document fault := resolveParam_eq_backend_iff
      rw [and_iff_left hmem, ← hparam]
      cases hv : c.resolveParam document vs (.template m) with
      | error e =>
        rw [resolveFrom_cons, hv]
        simp [Except.bind]
      | ok v =>
        have hreads : ¬ c.CannotRead document fault := by
          rw [← hparam, hv]
          intro h
          cases h
        rw [hpass v hv]
        refine iff_of_false (fun h => hreads h.1) ?_
        intro h
        cases h

theorem resolveParams_eq_backend_iff [Host] {vars : Pairs Text Value} :
    c.resolveParams vars document = .error (.backend fault) ↔
      c.CannotRead document fault ∧ ∃ name m, (name, Param.template m) ∈ c.params :=
  resolveFrom_eq_backend_iff

theorem settingText_eq_backend_iff [Host] {section_ name : Text} {vars : Pairs Text Value} :
    c.settingText section_ name vars document = .error (.backend fault) ↔
      c.CannotRead document fault ∧ ∃ m, c.setting? section_ name = some (.param (.template m)) := by
  unfold settingText
  cases hs : c.setting? section_ name with
  | none => simp
  | some setting =>
    cases setting with
    | text s => simp
    | table t => simp
    | autofiller a => simp
    | param p =>
      cases p with
      | bool b => simp
      | text s => simp
      | null => simp
      | template m =>
        have hopened : ((c.paramLookup document).bind fun lookup =>
            Rule.evaluate m .none ⟨.ofPairs vars, c.tables⟩ lookup false) =
              .error (.backend fault) ↔ c.CannotRead document fault :=
          (bind_eq_backend_iff fun _ => Rule.stopsByFilter_evaluate _ _ _ _ _).trans
            paramLookup_eq_backend_iff
        exact hopened.trans (and_iff_left ⟨m, rfl⟩).symm
    | entry e =>
      have hentry : ∀ start : Shared,
          (e.values.run' start).map List.head? ≠ .error (.backend fault) :=
        fun start => ((e.stopsByFilter_values start).map _).ne_backend fault
      dsimp only
      split
      · simp
      · exact iff_of_false (hentry _) (by simp)

/-- No conversion stops since a document cannot be read. -/
theorem convert_ne_backend [Host] (c : Config) (vars : Pairs Text Value) (document : SourceDocument)
    (fault : BackendFault) : c.convert vars document ≠ .error (.backend fault) := by
  intro h
  have hbuild : ∀ params, StopsByFilter (c.build.run' (c.start params vars document)) := by
    intro params
    rw [run'_build_eq]
    exact (StopsByFilter.foldlM (fun _ e => (e.stopsByFilter_defaultValues _).map _) _ _).bind
      fun _ => StopsByFilter.foldlM (fun _ e => (e.stopsByFilter_values _).map _) _ _
  obtain ⟨⟨d, hd, _⟩, _⟩ := resolveParams_eq_backend_iff.1 ((bind_eq_backend_iff hbuild).1 h)
  cases hd

/-- **A document that cannot be read** has no match for the entries of a conversion. Parameters and
settings stop at it when they hold a template, and only then. -/
theorem convert_unreadable [Host] (c : Config) (vars : Pairs Text Value) :
    (∀ document fault, c.convert vars document ≠ .error (.backend fault)) ∧
    (∀ q document columns fault, Backend.ofDocument q document columns = .error fault →
      c.convert vars document = (c.withoutReaders q).convert vars document) ∧
    (∀ document fault, c.resolveParams vars document = .error (.backend fault) ↔
      c.CannotRead document fault ∧ ∃ name m, (name, Param.template m) ∈ c.params) ∧
    ∀ section_ name document fault,
      c.settingText section_ name vars document = .error (.backend fault) ↔
        c.CannotRead document fault ∧
          ∃ m, c.setting? section_ name = some (.param (.template m)) :=
  ⟨c.convert_ne_backend vars, fun _ _ _ _ h => convert_withoutReaders h c vars,
    fun _ _ => resolveParams_eq_backend_iff, fun _ _ _ _ => settingText_eq_backend_iff⟩

/-- A mapping that reads xml by default, with a parameter that is read from the document. -/
def readingXml : Config :=
  { Config.empty with
    info := .ofPairs [("querier", "xpath")]
    params := [("t", .template (Template.compile "\x7b\x7b/a\x7d\x7d"))]
    mapping := [
      .rule ⟨some ⟨.xpath, "/a"⟩, ⟨"dcterms:title", none, [], none, none, none⟩, .empty⟩,
      .rule ⟨some ⟨.jsdot, "id"⟩, ⟨"dcterms:identifier", none, [], none, none, none⟩, .empty⟩] }

/-- Data, which no XPath reads. -/
def plainData : SourceDocument := .data (.map [("id", .str "1")])

theorem convert_unreadable_data :
    readingXml.convert [] plainData = .ok [("dcterms:identifier", ["1"])] ∧
      (readingXml.withoutReaders .xpath).convert [] plainData =
        .ok [("dcterms:identifier", ["1"])] ∧
      readingXml.settingText "mapping" "/a" [] (some plainData) ≠
        .error (.backend (.notXml "dict")) := by
  have h : readingXml.convert [] plainData = .ok [("dcterms:identifier", ["1"])] := by
    decide +kernel
  obtain ⟨-, hwithout, -, hsetting⟩ := convert_unreadable readingXml []
  refine ⟨h, (hwithout .xpath plainData .none (.notXml "dict") rfl).symm.trans h, fun hstop => ?_⟩
  obtain ⟨-, m, hm⟩ := (hsetting _ _ _ _).1 hstop
  cases hm

/-- A templated parameter stops at a document that cannot be read, when it is resolved and when it
is read on its own. -/
theorem templated_param_stops :
    readingXml.resolveParams [] (some plainData) = .error (.backend (.notXml "dict")) ∧
      readingXml.settingText "params" "t" [] (some plainData) =
        .error (.backend (.notXml "dict")) := by
  have hreads : readingXml.CannotRead (some plainData) (.notXml "dict") := ⟨plainData, rfl, rfl⟩
  exact ⟨resolveParams_eq_backend_iff.2 ⟨hreads, "t", _, List.mem_singleton_self _⟩,
    settingText_eq_backend_iff.2 ⟨hreads, _, rfl⟩⟩

end Config
end Crosswalk
