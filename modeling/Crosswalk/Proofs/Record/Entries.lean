import Crosswalk.Host.Bundled
import Crosswalk.Proofs.Outcome
import Crosswalk.Proofs.Record.Building

/-!
# Entries one by one

A record is what its entries write, each as if it stood alone in the mapping:

    c.convert vars document = .ok record →
      get? f record = what the entries for f write alone, one after another     (convert_entries)

`Config.singles` are the mappings that hold one entry each. What an entry of the mapping writes for
a source are the first occurrences of the texts that it makes of what is found
(`Rule.occurrences`).
-/

namespace Crosswalk

open Text

/-! ## The values of a source -/

namespace Rule

/-- The texts that a rule makes of what a backend finds, in order, with repetitions. -/
def texts [Host] (r : Rule) (source : Source) (b : Backend) (context : Context) :
    Converted (List Text) :=
  (((b.extract source.path none).filter Found.isUsable).mapM fun found =>
      evaluate r.modifier (.ofFound found) context
        (some fun path => b.firstText path found.context) (r.writesXml source.querier)).map
    fun written => (written.filterMap id).filter (· != [])

/-- The texts that a rule makes of what its source finds; none in a document that cannot be read. -/
def occurrences [Host] (r : Rule) (source : Source) (start : Shared) : Converted (List Text) :=
  match start.queries.open? source.querier with
  | .error _ => .ok []
  | .ok (b, _) => r.texts source b start.context

/-- A source gives the first occurrences of its texts. -/
theorem run'_sourceValues [Host] (r : Rule) (source : Source) (start : Shared) :
    (r.sourceValues source).run' start = (r.occurrences source start).map distinct := by
  have hsteady : ∀ b found, Steady start (r.valueOf source.querier b found) :=
    fun b found => steady_evaluateShared _ _ _ _
  unfold sourceValues occurrences
  rw [Steady.run'_bind (steady_openBackend source.querier) fun b? => ?_, openBackend_run']
  · cases ho : start.queries.open? source.querier with
    | error e => rfl
    | ok p =>
      obtain ⟨b, queries⟩ := p
      show ((((b.extract source.path none).filter Found.isUsable).mapM
        (r.valueOf source.querier b) >>= fun written =>
          pure (distinct ((written.filterMap id).filter (· != []))) :
            Sharing (List Text)).run' start) = (r.texts source b start.context).map distinct
      have hvalue : (fun found => (r.valueOf source.querier b found).run' start) = fun found =>
          evaluate r.modifier (.ofFound found) start.context
            (some fun path => b.firstText path found.context) (r.writesXml source.querier) :=
        funext fun found => evaluateShared_run' _ _ _ _ _
      rw [Steady.run'_bind (Steady.mapM (hsteady b)) fun _ => .pure _,
        Steady.run'_mapM (hsteady b), hvalue]
      unfold texts
      cases ((b.extract source.path none).filter Found.isUsable).mapM fun found =>
          evaluate r.modifier (.ofFound found) start.context
            (some fun path => b.firstText path found.context) (r.writesXml source.querier) <;> rfl
  · cases b? with
    | none => exact .pure []
    | some b => exact (Steady.mapM (hsteady b)).bind fun _ => .pure _

/-- An entry that is filled from the variables has the text of its modifier, if there is one. -/
theorem run'_defaultValues [Host] (r : Rule) (s : Shared) : r.defaultValues.run' s =
    (evaluate r.modifier .none s.context none false).map Option.toList := by
  unfold defaultValues
  rw [Steady.run'_bind (steady_evaluateShared _ _ _ _) fun _ => .pure _, evaluateShared_run']
  cases evaluate r.modifier .none s.context none false <;> rfl

theorem nodup_defaultValues [Host] {r : Rule} {start : Shared} {values : List Text}
    (h : r.defaultValues.run' start = .ok values) : values.Nodup := by
  rw [run'_defaultValues] at h
  obtain ⟨o, -, rfl⟩ := map_eq_ok.1 h
  cases o with
  | none => exact .nil
  | some s => exact List.nodup_singleton s

theorem nodup_values [Host] {r : Rule} {start : Shared} {values : List Text}
    (h : r.values.run' start = .ok values) : values.Nodup := by
  unfold Rule.values at h
  split at h
  · next s _ _ =>
    rw [run'_sourceValues] at h
    obtain ⟨texts, -, rfl⟩ := map_eq_ok.1 h
    exact nodup_distinct texts
  · exact nodup_defaultValues h

end Rule

namespace Config

theorem nodup_works [Host] {c : Config} {start : Shared} {w : Entry × Sharing (List Text)}
    (hw : w ∈ c.works) {values : List Text} (h : w.2.run' start = .ok values) : values.Nodup := by
  rcases List.mem_append.1 hw with hw | hw
  · obtain ⟨e, _, rfl⟩ := List.mem_map.1 hw
    cases e with
    | rule r => exact Rule.nodup_defaultValues h
    | faulty p => exact Except.ok.inj h ▸ .nil
  · obtain ⟨e, _, rfl⟩ := List.mem_map.1 hw
    cases e with
    | rule r => exact Rule.nodup_values h
    | faulty p => exact Except.ok.inj h ▸ .nil

/-! ## Runs over the entries -/

/-- The record with what an entry gives from the start. -/
def writeGiven (start : Shared) (values : Entry → Sharing (List Text)) (record : Record)
    (e : Entry) : Converted Record :=
  ((values e).run' start).map (write record e)

/-- **The run over the entries** writes what each of them gives from the start. -/
theorem run'_writeAll_eq [Host] {start : Shared} {values : Entry → Sharing (List Text)}
    (hv : ∀ e, Steady start (values e)) (record : Record) (es : List Entry) :
    (writeAll record values es).run' start = es.foldlM (writeGiven start values) record := by
  induction es generalizing record with
  | nil => rfl
  | cons e es ih =>
    rw [writeAll, Steady.run'_bind (hv e) fun vs => steady_writeAll hv _ es, List.foldlM_cons]
    simp only [ih]
    unfold writeGiven
    cases (values e).run' start <;> rfl

theorem run'_build_eq [Host] (c : Config) (start : Shared) : c.build.run' start =
    (c.default.foldlM (writeGiven start Entry.defaultValues) []).bind fun record =>
      c.mapping.foldlM (writeGiven start Entry.values) record := by
  have hd : ∀ e : Entry, Steady start e.defaultValues := fun e => e.steady_defaultValues
  have hm : ∀ e : Entry, Steady start e.values := fun e => e.steady_values
  unfold build
  rw [Steady.run'_bind (steady_writeAll hd [] c.default) fun r => steady_writeAll hm r c.mapping]
  simp only [run'_writeAll_eq hd, run'_writeAll_eq hm]
  rfl

/-! ## Mappings of one entry -/

/-- The mapping with this default entry alone. -/
def onlyDefault (c : Config) (e : Entry) : Config := { c with default := [e], mapping := [] }

/-- The mapping with this entry alone. -/
def only (c : Config) (e : Entry) : Config := { c with default := [], mapping := [e] }

/-- The entries, each with the mapping that holds it alone. -/
def singles (c : Config) : List (Entry × Config) :=
  c.default.map (fun e => (e, c.onlyDefault e)) ++ c.mapping.map fun e => (e, c.only e)

/-- The works of a mapping are those of its singles, one each. -/
theorem works_eq [Host] (c : Config) : c.works = c.singles.flatMap fun p => p.2.works := by
  unfold singles
  rw [List.flatMap_append, List.flatMap_map, List.flatMap_map]
  show _ = (c.default.flatMap fun e => [(e, e.defaultValues)]) ++
    c.mapping.flatMap fun e => [(e, e.values)]
  rw [← List.map_eq_flatMap, ← List.map_eq_flatMap]
  rfl

/-- Mappings alike but for their entries. -/
structure SameSettings (c c' : Config) : Prop where
  params : c'.params = c.params
  tables : c'.tables = c.tables
  querier : c'.querier = c.querier

theorem sameSettings_singles {c : Config} {p : Entry × Config} (h : p ∈ c.singles) :
    SameSettings c p.2 := by
  rcases List.mem_append.1 h with h | h
  · obtain ⟨e, _, rfl⟩ := List.mem_map.1 h
    exact ⟨rfl, rfl, rfl⟩
  · obtain ⟨e, _, rfl⟩ := List.mem_map.1 h
    exact ⟨rfl, rfl, rfl⟩

theorem resolveFrom_cons [Host] {c : Config} {vs : Variables} (document : Option SourceDocument)
    (name : Text) (q : Param) (more : Pairs Text Param) :
    c.resolveFrom document vs ((name, q) :: more) =
      (c.resolveParam document vs q).bind fun x =>
        (c.resolveFrom document (vs.put name x.variableText?) more).map ((name, x) :: ·) := rfl

/-- Parameters are resolved with the tables and the querier alone. -/
theorem resolveFrom_settings [Host] {c c' : Config} (ht : c'.tables = c.tables)
    (hq : c'.querier = c.querier) (document : Option SourceDocument) (ps : Pairs Text Param)
    (vars : Variables) : c'.resolveFrom document vars ps = c.resolveFrom document vars ps := by
  have hparam : ∀ (p : Param) (vars : Variables),
      c'.resolveParam document vars p = c.resolveParam document vars p := by
    intro p vars
    cases p with
    | template m =>
      unfold resolveParam paramLookup
      rw [ht, hq]
    | bool b => rfl
    | text s => rfl
    | null => rfl
  induction ps generalizing vars with
  | nil => rfl
  | cons p ps ih =>
    obtain ⟨name, p⟩ := p
    rw [resolveFrom, resolveFrom, hparam]
    simp only [ih]

theorem SameSettings.resolveParams [Host] {c c' : Config} (h : SameSettings c c')
    (vars : Pairs Text Value) (document : Option SourceDocument) :
    c'.resolveParams vars document = c.resolveParams vars document := by
  unfold Config.resolveParams
  rw [h.params]
  exact resolveFrom_settings h.tables h.querier document _ _

theorem SameSettings.start {c c' : Config} (h : SameSettings c c') (params vars : Pairs Text Value)
    (document : SourceDocument) : c'.start params vars document = c.start params vars document := by
  unfold Config.start contextOf
  rw [h.tables]

/-! ## Records of all entries and of one -/

/-- The record of the entries that give their values from the start. -/
def recordFrom [Host] (start : Shared) (c : Config) : Record :=
  writeEach [] (c.works.map fun w => (w.1, given start w.2))

theorem convert_eq_ok [Host] {c : Config} {vars params : Pairs Text Value}
    {document : SourceDocument} (hp : c.resolveParams vars none = .ok params) {record : Record} :
    c.convert vars document = .ok record ↔
      (∀ w ∈ c.works, w.2.run' (c.start params vars document) =
          .ok (given (c.start params vars document) w.2)) ∧
        record = recordFrom (c.start params vars document) c := by
  have hconvert : c.convert vars document = c.build.run' (c.start params vars document) := by
    unfold convert
    rw [hp]
    rfl
  rw [hconvert]
  exact run'_build

/-- A field holds what the works of its entries give, one after another. -/
theorem getD_recordFrom_works [Host] (start : Shared) (c : Config) (f : Text) :
    (Pairs.get? f (recordFrom start c)).getD [] =
      c.works.flatMap fun w => if w.1.field? = some f then given start w.2 else [] := by
  unfold recordFrom
  rw [getD_writeEach, List.flatMap_map]
  rfl

theorem getD_recordFrom [Host] (start : Shared) (c : Config) (f : Text) :
    (Pairs.get? f (recordFrom start c)).getD [] =
      c.singles.flatMap fun p => (Pairs.get? f (recordFrom start p.2)).getD [] := by
  simp only [getD_recordFrom_works]
  rw [works_eq, List.flatMap_assoc]

theorem keys_recordFrom [Host] (start : Shared) (c : Config) : Pairs.keys (recordFrom start c) =
    distinct (c.works.flatMap fun w => w.1.filled (given start w.2)) := by
  unfold recordFrom
  rw [keys_writeEach, List.flatMap_map]

/-- A mapping of one entry has one work. -/
theorem works_single [Host] {c : Config} {p : Entry × Config} (h : p ∈ c.singles) :
    ∃ x, p.2.works = [(p.1, x)] := by
  rcases List.mem_append.1 h with h | h
  · obtain ⟨e, _, rfl⟩ := List.mem_map.1 h
    exact ⟨e.defaultValues, rfl⟩
  · obtain ⟨e, _, rfl⟩ := List.mem_map.1 h
    exact ⟨e.values, rfl⟩

/-- A mapping of one entry fills the field of this entry, if it has values. -/
theorem keys_recordFrom_single [Host] {c : Config} {p : Entry × Config} (h : p ∈ c.singles)
    (start : Shared) : Pairs.keys (recordFrom start p.2) =
      p.2.works.flatMap fun w => w.1.filled (given start w.2) := by
  obtain ⟨x, hx⟩ := works_single h
  rw [keys_recordFrom, hx, List.flatMap_singleton]
  unfold Entry.filled
  split
  · rfl
  · cases p.1.field? <;> rfl

/-- The values of an entry are all that its record holds. -/
theorem getD_recordFrom_work [Host] {start : Shared} {c : Config} {w : Entry × Sharing (List Text)}
    (hw : c.works = [w]) (f : Text) : (Pairs.get? f (recordFrom start c)).getD [] =
      if w.1.field? = some f then given start w.2 else [] := by
  unfold recordFrom
  rw [hw]
  show (Pairs.get? f (writeEach [] [(w.1, given start w.2)])).getD [] = _
  rw [getD_writeEach, List.flatMap_singleton]
  rfl

/-- What the entries for a field write alone, one after another. -/
def contributions (c : Config) (out : Config → Record) (f : Text) : List Text :=
  (c.singles.filter fun p => p.1.field? = some f).flatMap fun p =>
    (Pairs.get? f (out p.2)).getD []

theorem contributions_recordFrom [Host] (start : Shared) (c : Config) (f : Text) :
    c.contributions (recordFrom start) f =
      c.singles.flatMap fun p => (Pairs.get? f (recordFrom start p.2)).getD [] := by
  have hsingles : ∀ ps : List (Entry × Config), (∀ p ∈ ps, p ∈ c.singles) →
      (ps.filter fun p => p.1.field? = some f).flatMap (fun p =>
          (Pairs.get? f (recordFrom start p.2)).getD []) =
        ps.flatMap fun p => (Pairs.get? f (recordFrom start p.2)).getD [] := by
    intro ps hps
    induction ps with
    | nil => rfl
    | cons p ps ih =>
      rw [List.flatMap_cons, ← ih fun q hq => hps q (List.mem_cons_of_mem p hq), List.filter_cons]
      split
      · exact List.flatMap_cons
      · next hf =>
        obtain ⟨x, hx⟩ := works_single (hps p List.mem_cons_self)
        rw [getD_recordFrom_work hx, if_neg fun e => hf (decide_eq_true e), List.nil_append]
  exact hsingles _ fun _ h => h

/-- A field is in a record when some entry has values for it. -/
theorem mem_keys_recordFrom [Host] (start : Shared) (c : Config) (f : Text) :
    f ∈ Pairs.keys (recordFrom start c) ↔ (Pairs.get? f (recordFrom start c)).getD [] ≠ [] := by
  have hfield : ∀ w : Entry × Sharing (List Text), f ∈ w.1.filled (given start w.2) ↔
      (if w.1.field? = some f then given start w.2 else []) ≠ [] := by
    intro w
    unfold Entry.filled
    by_cases hv : given start w.2 = []
    · simp [hv]
    · by_cases hf : w.1.field? = some f
      · simp [hv, hf]
      · simp [hv, hf]
  rw [keys_recordFrom, mem_distinct, List.mem_flatMap, getD_recordFrom_works, ne_eq,
    List.flatMap_eq_nil_iff]
  simp only [hfield]
  simp

section

variable [Host] {c : Config} {vars params : Pairs Text Value} {document : SourceDocument}
  (hgiven : ∀ w ∈ c.works, w.2.run' (c.start params vars document) =
    .ok (given (c.start params vars document) w.2))

include hgiven

/-- An entry alone starts as all of them do, and gives the same. -/
theorem convert_single (hp : c.resolveParams vars none = .ok params) {p : Entry × Config}
    (hs : p ∈ c.singles) : p.2.convert vars document =
      .ok (recordFrom (c.start params vars document) p.2) := by
  have hsame := sameSettings_singles hs
  have hp' := (hsame.resolveParams vars none).trans hp
  rw [← hsame.start] at hgiven ⊢
  refine (convert_eq_ok hp').2 ⟨fun w hw => hgiven w ?_, rfl⟩
  rw [works_eq]
  exact List.mem_flatMap.2 ⟨p, hs, hw⟩

theorem nodup_single {p : Entry × Config} (hs : p ∈ c.singles) (f : Text) :
    ((Pairs.get? f (recordFrom (c.start params vars document) p.2)).getD []).Nodup := by
  obtain ⟨x, hx⟩ := works_single hs
  have hw : (p.1, x) ∈ c.works := by
    rw [works_eq]
    exact List.mem_flatMap.2 ⟨p, hs, by rw [hx]; exact List.mem_cons_self⟩
  rw [getD_recordFrom_work hx]
  split
  · exact nodup_works hw (hgiven _ hw)
  · exact .nil

/-- The texts of a source are written as they are first seen. -/
theorem firstSeen_single {r : Rule} {source : Source} (hr : .rule r ∈ c.mapping)
    (hsource : r.source = some source) (hraw : r.modifier.raw = none) :
    ∃ texts, r.occurrences source (c.start params vars document) = .ok texts ∧
      FirstSeen ((Pairs.get? r.destination.field
        (recordFrom (c.start params vars document) (c.only (.rule r)))).getD []) texts := by
  have hvalues : r.values.run' (c.start params vars document) =
      .ok (given (c.start params vars document) r.values) :=
    hgiven (.rule r, r.values) (List.mem_append_right _ (List.mem_map.2 ⟨.rule r, hr, rfl⟩))
  have hsourced : r.values = r.sourceValues source := by
    unfold Rule.values
    rw [hraw, hsource]
  have hwork : (c.only (.rule r)).works = [(.rule r, r.values)] := rfl
  rw [getD_recordFrom_work hwork,
    if_pos (show (Entry.rule r, r.values).1.field? = some r.destination.field from rfl)]
  simp only [hsourced, Rule.run'_sourceValues] at hvalues ⊢
  cases ho : r.occurrences source (c.start params vars document) with
  | error e => rw [ho] at hvalues; cases hvalues
  | ok texts =>
    rw [ho] at hvalues
    refine ⟨texts, rfl, ?_⟩
    rw [← Except.ok.inj hvalues]
    exact firstSeen_distinct texts

end

/-- **Entries are independent.** The record of a conversion holds for each field what the entries
for it write when each is converted alone, and the fields come as they are first filled. An entry
writes no text twice; one of the mapping writes the texts of its source as they are first seen. -/
theorem convert_entries [Host] {c : Config} {vars : Pairs Text Value} {document : SourceDocument}
    {record : Record} (h : c.convert vars document = .ok record) :
    ∃ out : Config → Record,
      (∀ p ∈ c.singles, p.2.convert vars document = .ok (out p.2)) ∧
      (∀ f, (Pairs.get? f record).getD [] = c.contributions out f) ∧
      (∀ f, f ∈ Pairs.keys record ↔ c.contributions out f ≠ []) ∧
      Pairs.keys record = distinct (c.singles.flatMap fun p => Pairs.keys (out p.2)) ∧
      (∀ p ∈ c.singles, ∀ f, ((Pairs.get? f (out p.2)).getD []).Nodup) ∧
      ∃ params, c.resolveParams vars none = .ok params ∧
        ∀ r source, .rule r ∈ c.mapping → r.source = some source → r.modifier.raw = none →
          ∃ texts, r.occurrences source (c.start params vars document) = .ok texts ∧
            FirstSeen ((Pairs.get? r.destination.field (out (c.only (.rule r)))).getD []) texts := by
  cases hp : c.resolveParams vars none with
  | error e =>
    unfold convert at h
    rw [hp] at h
    cases h
  | ok params =>
    obtain ⟨hgiven, rfl⟩ := (convert_eq_ok hp).1 h
    refine ⟨recordFrom (c.start params vars document), fun p hs => convert_single hgiven hp hs,
      fun f => ?_, fun f => ?_, ?_, fun p hs f => nodup_single hgiven hs f, params, rfl,
      fun r source hr hsource hraw => firstSeen_single hgiven hr hsource hraw⟩
    · rw [contributions_recordFrom, getD_recordFrom]
    · rw [contributions_recordFrom, ← getD_recordFrom]
      exact mem_keys_recordFrom _ c f
    · rw [keys_recordFrom, works_eq, List.flatMap_assoc]
      exact congrArg distinct (List.flatMap_congr fun p hs => (keys_recordFrom_single hs _).symm)

/-- A mapping where two entries, with a faulty one between them, write to one field. -/
def subjects : Config :=
  let field (name : Text) : Destination := ⟨name, none, [], none, none, none⟩
  { Config.empty with
    default := [.rule ⟨none, field "dcterms:type", .ofRaw "Book"⟩]
    mapping := [
      .rule ⟨some ⟨.jsdot, "tags"⟩, field "dcterms:subject",
        Template.compile "\x7b\x7b value|upper \x7d\x7d"⟩,
      .faulty .invalidXml,
      .rule ⟨some ⟨.jsdot, "name"⟩, field "dcterms:subject", .empty⟩] }

/-- A document with a repeated tag. -/
def tagged : SourceDocument :=
  .data (.map [("tags", .list [.str "a", .str "b", .str "a"]), ("name", .str "c")])

theorem convert_entries_subjects : ∃ out : Config → Record,
    (∀ p ∈ subjects.singles, p.2.convert [] tagged = .ok (out p.2)) ∧
      subjects.contributions out "dcterms:subject" = ["A", "B", "c"] := by
  have h : subjects.convert [] tagged =
      .ok [("dcterms:type", ["Book"]), ("dcterms:subject", ["A", "B", "c"])] := by
    decide +kernel
  obtain ⟨out, hsingle, hfield, _⟩ := convert_entries h
  exact ⟨out, hsingle, (hfield "dcterms:subject").symm.trans (by decide)⟩

end Config
end Crosswalk
