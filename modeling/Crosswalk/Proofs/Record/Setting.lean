import Crosswalk.Host.Bundled
import Crosswalk.Proofs.Record.Override

/-!
# Settings on their own

A setting that is read on its own (`Config.settingText`) sees the variables of the caller, and none
of the parameters. It is what the whole gives as soon as the caller passes what the parameters give.

* A templated parameter, with the parameters before it among the variables:

      get? name ps = some (textOrNull s)
      c.settingText "params" name (vars.merge (before name ps)) none = .ok s

* An entry, with all parameters among the variables, and in place of the written ones:

      (c.withValues ps).settingText "mapping" path (ps.merge vars) document =
        the first value that the entry writes in `c.convert vars document`

where `ps` are the parameters that `c.resolveParams vars` gives. Without them it is the same for a
setting that overlooks the parameters (`Config.settingText_agrees`): a template of known names does
when it names no parameter before it (`Config.overlooks_layout`), an entry when it makes the same
texts of what it reads and no template names its columns (`Config.readsAlike_plain`).
-/

namespace Crosswalk

open Text Template

/-! ## Some keys -/

namespace Pairs

variable {κ α : Type} [DecidableEq κ] {k : κ} {ks : List κ} {m more : Pairs κ α}

/-- The pairs before the first one of a key. -/
def before (k : κ) (m : Pairs κ α) : Pairs κ α := m.takeWhile fun p => p.1 ≠ k

/-- The pairs of other keys. -/
def outside (ks : List κ) (m : Pairs κ α) : Pairs κ α := m.filter fun p => p.1 ∉ ks

theorem outside_nil (m : Pairs κ α) : outside [] m = m := by
  unfold outside
  refine List.filter_eq_self.2 fun p _ => ?_
  simp

theorem outside_cons (k : κ) (ks : List κ) (m : Pairs κ α) :
    outside (k :: ks) m = without k (outside ks m) := by
  unfold outside without
  rw [List.filter_filter]
  refine List.filter_congr fun p _ => ?_
  simp [not_or]

theorem without_without (k : κ) (m : Pairs κ α) : without k (without k m) = without k m := by
  unfold without
  rw [List.filter_filter]
  simp

theorem outside_of_without (hk : k ∈ ks) {a b : Pairs κ α} (h : without k a = without k b) :
    outside ks a = outside ks b := by
  have houtside : ∀ m : Pairs κ α, outside ks m = outside ks (without k m) := by
    intro m
    unfold outside without
    rw [List.filter_filter]
    refine List.filter_congr fun p _ => ?_
    by_cases e : p.1 = k
    · simp [e, hk]
    · simp [e]
  rw [houtside a, h, ← houtside b]

/-- What is merged under some keys leaves the others. -/
theorem outside_merge (h : ∀ l ∈ keys more, l ∈ ks) : outside ks (merge m more) = outside ks m := by
  have hmore : more.filter (fun p => decide (p.1 ∉ ks)) = [] := by
    refine List.filter_eq_nil_iff.2 fun p hp => ?_
    have hkey : p.1 ∈ ks := h _ (List.mem_map_of_mem hp)
    simp [hkey]
  unfold outside
  rw [filter_merge (fun l => decide (l ∉ ks)), hmore]
  rfl

end Pairs

theorem Variables.ofPairs_outside (ks : List Text) (vars : Pairs Text Value) :
    Variables.ofPairs (Pairs.outside ks vars) = Pairs.outside ks (Variables.ofPairs vars) := by
  unfold ofPairs Pairs.outside
  rw [List.filter_map]
  rfl

/-! ## What rules read -/

theorem ColumnChoice.ofValue_ne_template (x : Value) : ofValue x ≠ .template := by
  unfold ofValue
  split <;> (try split) <;> exact ColumnChoice.noConfusion

theorem Columns.asksTemplate_eq_false {c : Columns} (hkey : c.key ≠ .template)
    (hvalue : c.value ≠ .template) (flat : Pairs Text Value) : c.asksTemplate flat = false := by
  have hnot : (c.value == ColumnChoice.template) = false := beq_false_of_ne hvalue
  unfold asksTemplate
  split
  · refine List.any_eq_false.2 fun p _ => ?_
    split
    · next hk => exact absurd hk hkey
    · rw [hnot]
      exact Bool.false_ne_true
    · rw [hnot, Bool.and_false]
      exact Bool.false_ne_true
  · rfl

/-- Columns matter to dotted paths alone. -/
theorem Queries.open?_columns [Host] {querier : Querier} (hq : querier ≠ .jsdot)
    (document : SourceDocument) (columns columns' : Columns) :
    ((Queries.ofDocument document columns).open? querier).map (·.1) =
      ((Queries.ofDocument document columns').open? querier).map (·.1) := by
  have hbackend : Backend.ofDocument querier document columns =
      Backend.ofDocument querier document columns' := by
    cases querier with
    | jsdot => exact absurd rfl hq
    | jmespath => rfl
    | jsonpath => rfl
    | xpath => rfl
  show ((Backend.ofDocument querier document columns).map _).map _ =
    ((Backend.ofDocument querier document columns').map _).map _
  rw [hbackend]
  cases Backend.ofDocument querier document columns' <;> rfl

theorem Modifier.evaluate_plain [Host] {m : Modifier} (hm : m.pattern.getD [] = [])
    (subject : Subject) (context context' : Context) (lookup : Lookup) (asXml : Bool) :
    m.evaluate subject context lookup asXml = m.evaluate subject context' lookup asXml := by
  have hbody : m.body subject context lookup asXml = m.body subject context' lookup asXml := by
    unfold body
    rw [hm]
  unfold evaluate
  rw [hbody]

namespace Rule

/-- What a modifier is evaluated for. -/
structure Reading where
  subject : Subject
  lookup : Lookup
  asXml : Bool

/-- All that a rule evaluates its modifier for: each thing that its source finds, or nothing when
it is filled from the variables. -/
def readings [Host] (r : Rule) (q : Queries) : List Reading :=
  match r.modifier.raw, r.source with
  | none, some source =>
    match (q.open? source.querier).map (·.1) with
    | .error _ => []
    | .ok b => ((b.extract source.path none).filter Found.isUsable).map fun found =>
      ⟨.ofFound found, some fun path => b.firstText path found.context,
        r.writesXml source.querier⟩
  | _, _ => [⟨.none, none, false⟩]

/-- The texts of a rule depend on the backend alone that is opened. -/
theorem occurrences_eq [Host] (r : Rule) (source : Source) (s : Shared) : r.occurrences source s =
    match (s.queries.open? source.querier).map (·.1) with
    | .error _ => .ok []
    | .ok b => r.texts source b s.context := by
  unfold occurrences
  cases s.queries.open? source.querier <;> rfl

section

variable [Host] {r : Rule} {s s' : Shared}
  (htexts : ∀ x ∈ r.readings s'.queries,
    evaluate r.modifier x.subject s.context x.lookup x.asXml =
      evaluate r.modifier x.subject s'.context x.lookup x.asXml)

include htexts

theorem occurrences_congr {source : Source} (hraw : r.modifier.raw = none)
    (hsource : r.source = some source)
    (hopen : (s.queries.open? source.querier).map (·.1) =
      (s'.queries.open? source.querier).map (·.1)) :
    r.occurrences source s = r.occurrences source s' := by
  unfold readings at htexts
  simp only [hraw, hsource] at htexts
  rw [occurrences_eq, occurrences_eq, hopen]
  cases hbackend : (s'.queries.open? source.querier).map (·.1) with
  | error e => rfl
  | ok b =>
    simp only [hbackend] at htexts
    dsimp only
    rw [texts, texts, mapM_congr fun found hfound => htexts _ (List.mem_map_of_mem hfound)]

/-- A rule that makes the same texts of what it reads has the same values. -/
theorem run'_values_congr
    (hopen : ∀ source, r.modifier.raw = none → r.source = some source →
      (s.queries.open? source.querier).map (·.1) = (s'.queries.open? source.querier).map (·.1)) :
    r.values.run' s = r.values.run' s' := by
  unfold values
  split
  · next source hraw hsource =>
    rw [run'_sourceValues, run'_sourceValues,
      occurrences_congr htexts hraw hsource (hopen source hraw hsource)]
  · next hnot =>
    have hone : r.readings s'.queries = [⟨.none, none, false⟩] := by
      unfold readings
      split
      · next source hraw hsource => exact absurd hsource (hnot source hraw)
      · rfl
    have hsame : evaluate r.modifier .none s.context none false =
        evaluate r.modifier .none s'.context none false :=
      htexts ⟨.none, none, false⟩ (hone ▸ List.mem_singleton.2 rfl)
    rw [run'_defaultValues, run'_defaultValues, hsame]

end

end Rule

namespace Param

/-- A value that a parameter gives, as a parameter that is no template. -/
def ofValue : Value → Param
  | .bool b => .bool b
  | .str s => .text s
  | _ => .null

theorem columnChoice_ofValue (x : Value) :
    (ofValue x).columnChoice = ColumnChoice.ofValue (ofValue x).value := by
  cases x <;> rfl

end Param

namespace Config

variable {c : Config} {vars ps : Pairs Text Value} {params : Pairs Text Param} {name : Text}
  {m : Modifier}

/-! ## Parameters on their own -/

theorem resolveParam_template [Host] (vs : Variables) (m : Modifier) :
    c.resolveParam none vs (.template m) =
      (Rule.evaluate m .none ⟨vs, c.tables⟩ none false).map textOrNull := rfl

theorem settingText_template [Host] (h : Pairs.get? name c.params = some (.template m))
    (vars : Pairs Text Value) : c.settingText "params" name vars none =
      Rule.evaluate m .none ⟨.ofPairs vars, c.tables⟩ none false := by
  have hsetting : c.setting? "params" name = some (.param (.template m)) := by
    show (Part.params c.params).setting? name = _
    simp only [Part.setting?, h]
  unfold settingText
  rw [hsetting]
  rfl

/-- A parameter is resolved under the parameters before it. -/
theorem get?_resolveFrom [Host] {q : Param} (h : c.resolveFrom none (.ofPairs vars) params = .ok ps)
    (hq : Pairs.get? name params = some q) :
    ∃ x, c.resolveParam none (.ofPairs (vars.merge (Pairs.before name ps))) q = .ok x ∧
      Pairs.get? name ps = some x := by
  -- The variables vary: each parameter joins them for the ones behind it.
  induction params generalizing vars ps with
  | nil => cases hq
  | cons p params ih =>
    obtain ⟨l, q'⟩ := p
    obtain ⟨x, hx, rest, hrest, rfl⟩ := resolveFrom_cons_eq_ok.1 h
    rw [Pairs.get?] at hq
    by_cases e : l = name
    · rw [if_pos e] at hq
      obtain rfl := Option.some.inj hq
      have hbefore : Pairs.before name ((l, x) :: rest) = [] := by
        simp [Pairs.before, e]
      refine ⟨x, ?_, by rw [Pairs.get?, if_pos e]⟩
      rw [hbefore]
      exact hx
    · rw [if_neg e] at hq
      rw [← Variables.ofPairs_put] at hrest
      obtain ⟨y, hy, hget⟩ := ih hrest hq
      have hbefore : Pairs.before name ((l, x) :: rest) = (l, x) :: Pairs.before name rest := by
        simp [Pairs.before, e]
      refine ⟨y, ?_, by rw [Pairs.get?, if_neg e, hget]⟩
      rw [hbefore]
      exact hy

/-- **A templated parameter** that is read on its own gives its value, with the parameters before
it among the variables. -/
theorem settingText_param [Host] (h : c.resolveParams vars none = .ok ps)
    (hm : Pairs.get? name c.params = some (.template m)) :
    ∃ s, Pairs.get? name ps = some (textOrNull s) ∧
      c.settingText "params" name (vars.merge (Pairs.before name ps)) none = .ok s := by
  obtain ⟨x, hx, hget⟩ := get?_resolveFrom h hm
  rw [resolveParam_template] at hx
  obtain ⟨s, hs, rfl⟩ := map_eq_ok.1 hx
  exact ⟨s, hget, (settingText_template hm _).trans hs⟩

/-- The template gives the same whatever the variables of these names stand for. -/
def Overlooks [Host] (c : Config) (names : List Text) (vs : Variables) (m : Modifier) : Prop :=
  ∀ vs' : Variables, Pairs.outside names vs' = Pairs.outside names vs →
    c.resolveParam none vs' (.template m) = c.resolveParam none vs (.template m)

theorem Overlooks.settingText [Host]
    (ho : c.Overlooks (Pairs.keys (Pairs.before name ps)) (.ofPairs vars) m)
    (hm : Pairs.get? name c.params = some (.template m)) :
    c.settingText "params" name vars none =
      c.settingText "params" name (vars.merge (Pairs.before name ps)) none := by
  have houtside : Pairs.outside (Pairs.keys (Pairs.before name ps)) (Variables.ofPairs vars) =
      Pairs.outside (Pairs.keys (Pairs.before name ps))
        (Variables.ofPairs (vars.merge (Pairs.before name ps))) := by
    rw [← Variables.ofPairs_outside, ← Variables.ofPairs_outside, Pairs.outside_merge fun l hl => hl]
  have hsame := resolveParam_template_eq_iff.1 (ho _ houtside.symm)
  rw [settingText_template hm, settingText_template hm, Rule.evaluate, Rule.evaluate, hsame]

/-! ## Templates of known names -/

section

variable {vs : Variables} {l : Layout} {names : List Text} (hb : ∀ n ∈ names, Bare n)
  (hmem : ∀ n ∈ names, .token (.named n) ∉ l)

include hb hmem

theorem knownNames_outside :
    KnownNames (Variables.texts (Pairs.outside names vs)) l ↔ KnownNames vs.texts l := by
  induction names with
  | nil => rw [Pairs.outside_nil]
  | cons n names ih =>
    have hn : Bare n := hb n List.mem_cons_self
    have hnot : .token (.named n) ∉ l := hmem n List.mem_cons_self
    have htwice := Pairs.without_without n (Pairs.outside names vs)
    rw [Pairs.outside_cons, ← ih (fun k hk => hb k (List.mem_cons_of_mem n hk))
      fun k hk => hmem k (List.mem_cons_of_mem n hk)]
    constructor
    · exact fun h => h.congr htwice.symm hn fun hl => absurd hl hnot
    · exact fun h => h.congr htwice hn fun hl => absurd hl hnot

theorem resolveParam_outside [Host] (hl : Written l) (hn : KnownNames vs.texts l) :
    c.resolveParam none (Pairs.outside names vs) (.template (compile l.text)) =
      c.resolveParam none vs (.template (compile l.text)) := by
  induction names with
  | nil => rw [Pairs.outside_nil]
  | cons n names ih =>
    have hb' : ∀ k ∈ names, Bare k := fun k hk => hb k (List.mem_cons_of_mem n hk)
    have hmem' : ∀ k ∈ names, .token (.named k) ∉ l := fun k hk =>
      hmem k (List.mem_cons_of_mem n hk)
    have hignores : c.Ignores n (Pairs.outside names vs) (.template (compile l.text)) :=
      ignores_unnamed ((knownNames_outside hb' hmem').2 hn) hl (hb n List.mem_cons_self)
        (hmem n List.mem_cons_self)
    rw [Pairs.outside_cons, hignores _ (Pairs.without_without n _), ih hb' hmem']

end

/-- **A template of known names** overlooks the names that it does not name, and no other one. -/
theorem overlooks_layout [Host] {vs : Variables} {l : Layout} {names : List Text}
    (hn : KnownNames vs.texts l) (hl : Written l) (hb : ∀ n ∈ names, Bare n) :
    c.Overlooks names vs (compile l.text) ↔ ∀ n ∈ names, .token (.named n) ∉ l := by
  constructor
  · intro ho n hmem hnamed
    refine not_ignores_named (c := c) hn hl (hb n hmem) hnamed fun vs' h => ?_
    exact ho vs' (Pairs.outside_of_without hmem h)
  · intro hmem vs' h
    have hn' : KnownNames vs'.texts l := by
      rw [← knownNames_outside hb hmem, h]
      exact (knownNames_outside hb hmem).2 hn
    rw [← resolveParam_outside hb hmem hl hn', h, resolveParam_outside hb hmem hl hn]

/-! ## Resolved parameters in place of the written ones -/

/-- The configuration whose parameters are these values. -/
def withValues (c : Config) (ps : Pairs Text Value) : Config :=
  { c with params := ps.map fun p => (p.1, Param.ofValue p.2) }

theorem value_resolveParam [Host] {vs : Variables} {q : Param} {x : Value}
    (h : c.resolveParam none vs q = .ok x) : (Param.ofValue x).value = x := by
  cases q with
  | template m =>
    rw [resolveParam_template] at h
    obtain ⟨s, -, rfl⟩ := map_eq_ok.1 h
    cases s <;> rfl
  | bool b => exact Except.ok.inj h ▸ rfl
  | text s => exact Except.ok.inj h ▸ rfl
  | null => exact Except.ok.inj h ▸ rfl

theorem value_resolveFrom [Host] {vs : Variables} (h : c.resolveFrom none vs params = .ok ps) :
    ∀ p ∈ ps, (Param.ofValue p.2).value = p.2 := by
  induction params generalizing vs ps with
  | nil =>
    obtain rfl := Except.ok.inj h
    exact fun p hp => absurd hp List.not_mem_nil
  | cons q params ih =>
    obtain ⟨x, hx, rest, hrest, rfl⟩ := resolveFrom_cons_eq_ok.1 h
    exact List.forall_mem_cons.2 ⟨value_resolveParam hx, ih hrest⟩

/-- Resolved parameters name the columns that they name when they are written so. -/
theorem writtenColumns_withValues (h : ∀ p ∈ ps, (Param.ofValue p.2).value = p.2) :
    (c.withValues ps).writtenColumns = columnsOf ps := by
  have hchoice : ∀ name : Text,
      (Pairs.get? name (c.withValues ps).params).map Param.columnChoice =
        (Pairs.get? name ps).map ColumnChoice.ofValue := by
    intro name
    show (Pairs.get? name (ps.map fun p => (p.1, Param.ofValue p.2))).map _ = _
    rw [Pairs.get?_map]
    cases hx : Pairs.get? name ps with
    | none => rfl
    | some x =>
      have hvalue : (Param.ofValue x).value = x := h _ (Pairs.mem_of_get? hx)
      show some (Param.ofValue x).columnChoice = some (ColumnChoice.ofValue x)
      rw [Param.columnChoice_ofValue, hvalue]
  unfold writtenColumns columnsOf
  simp only [hchoice]

/-- The columns are named by no template. -/
def PlainColumns (c : Config) : Prop :=
  ∀ name ∈ columnNames, ∀ m, Pairs.get? name c.params ≠ some (.template m)

/-- Parameters that are no templates name the same columns before they are resolved. -/
theorem PlainColumns.writtenColumns [Host] (hc : c.PlainColumns)
    (h : c.resolveParams vars none = .ok ps) : c.writtenColumns = columnsOf ps := by
  have hchoice : ∀ name ∈ columnNames, (Pairs.get? name c.params).map Param.columnChoice =
      (Pairs.get? name ps).map ColumnChoice.ofValue := by
    intro name hname
    cases hq : Pairs.get? name c.params with
    | none =>
      have hnot : name ∉ Pairs.keys ps := by
        rw [keys_resolveFrom h]
        exact Pairs.get?_eq_none.1 hq
      rw [Pairs.get?_eq_none.2 hnot]
      rfl
    | some q =>
      obtain ⟨x, hx, hget⟩ := get?_resolveFrom h hq
      rw [hget]
      cases q with
      | template m => exact absurd hq (hc name hname m)
      | bool b => exact Except.ok.inj hx ▸ rfl
      | text s => exact Except.ok.inj hx ▸ rfl
      | null => exact Except.ok.inj hx ▸ rfl
  unfold Config.writtenColumns columnsOf Columns.ofParams
  simp only [hchoice "fields" (by decide), hchoice "fields.key" (by decide),
    hchoice "fields.value" (by decide)]

/-! ## Entries on their own -/

variable {r : Rule} {path : Text} {document : SourceDocument}

/-- What a setting that is read on its own finds. -/
def startAlone (c : Config) (vars : Pairs Text Value) (document : SourceDocument) : Shared :=
  ⟨⟨.ofPairs vars, c.tables⟩, .ofDocument document c.writtenColumns⟩

theorem settingText_rule [Host] (h : c.entry? path = some (.rule r)) (vars : Pairs Text Value)
    (document : SourceDocument) : c.settingText "mapping" path vars (some document) =
      if (Entry.rule r).readsDotted && (c.startAlone vars document).queries.asksTemplate then
        .error .templateColumn
      else (r.values.run' (c.startAlone vars document)).map List.head? := by
  have hsetting : c.setting? "mapping" path = some (.entry (.rule r)) := by
    show (c.entry? path).map Setting.entry = _
    rw [h]
    rfl
  unfold settingText
  rw [hsetting]
  rfl

/-- The first value that a rule writes in a conversion, where nothing else is written. -/
def firstValue [Host] (c : Config) (r : Rule) (vars : Pairs Text Value)
    (document : SourceDocument) : Converted (Option Text) :=
  ((c.only (.rule r)).convert vars document).map fun record =>
    ((Pairs.get? r.destination.field record).getD []).head?

theorem firstValue_eq [Host] (h : c.resolveParams vars none = .ok ps) (r : Rule)
    (document : SourceDocument) : c.firstValue r vars document =
      (r.values.run' (c.start ps vars document)).map List.head? := by
  have hsame : SameSettings c (c.only (.rule r)) := ⟨rfl, rfl, rfl⟩
  have hconvert : (c.only (.rule r)).convert vars document =
      (r.values.run' (c.start ps vars document)).map (write [] (.rule r)) := by
    unfold convert
    rw [hsame.resolveParams, h]
    show (·.1) <$> (r.values.run (c.start ps vars document) >>= fun p =>
      pure (write [] (.rule r) p.1, p.2)) =
        ((·.1) <$> r.values.run (c.start ps vars document)).map _
    cases r.values.run (c.start ps vars document) <;> rfl
  unfold firstValue
  rw [hconvert]
  cases r.values.run' (c.start ps vars document) with
  | error e => rfl
  | ok values =>
    show Except.ok ((Pairs.get? r.destination.field (write [] (.rule r) values)).getD []).head? = _
    rw [getD_write, if_pos (show (Entry.rule r).field? = some r.destination.field from rfl)]
    rfl

theorem not_asksTemplate_start (c : Config) (ps vars : Pairs Text Value)
    (document : SourceDocument) : (c.start ps vars document).queries.asksTemplate = false := by
  have hchoice : ∀ name : Text,
      ((Pairs.get? name ps).map ColumnChoice.ofValue).getD .unset ≠ .template := by
    intro name
    cases Pairs.get? name ps with
    | none => exact ColumnChoice.noConfusion
    | some x => exact ColumnChoice.ofValue_ne_template x
  exact Columns.asksTemplate_eq_false (hchoice "fields.key") (hchoice "fields.value") _

/-- **An entry** that is read on its own gives the first value that it writes in a conversion, with
the resolved parameters in place of the written ones and among the variables. -/
theorem settingText_withValues [Host] (h : c.resolveParams vars none = .ok ps)
    (hr : c.entry? path = some (.rule r)) (document : SourceDocument) :
    (c.withValues ps).settingText "mapping" path (ps.merge vars) (some document) =
      c.firstValue r vars document := by
  have hstart : (c.withValues ps).startAlone (ps.merge vars) document =
      c.start ps vars document := by
    unfold startAlone
    rw [writtenColumns_withValues (value_resolveFrom h)]
    rfl
  rw [settingText_rule (c := c.withValues ps) hr, hstart, not_asksTemplate_start, Bool.and_false,
    if_neg Bool.false_ne_true, firstValue_eq h]

/-- Neither the texts nor the columns that a rule reads depend on the parameters. -/
structure ReadsAlike [Host] (c : Config) (r : Rule) (vars ps : Pairs Text Value)
    (document : SourceDocument) : Prop where
  columns : (Entry.rule r).readsDotted = true → c.writtenColumns = columnsOf ps
  texts : ∀ s ∈ r.readings (.ofDocument document (columnsOf ps)),
    Rule.evaluate r.modifier s.subject ⟨.ofPairs vars, c.tables⟩ s.lookup s.asXml =
      Rule.evaluate r.modifier s.subject ⟨.ofPairs (ps.merge vars), c.tables⟩ s.lookup s.asXml

theorem ReadsAlike.settingText [Host] (ha : c.ReadsAlike r vars ps document)
    (h : c.resolveParams vars none = .ok ps) (hr : c.entry? path = some (.rule r)) :
    c.settingText "mapping" path vars (some document) = c.firstValue r vars document := by
  have hasks : ((Entry.rule r).readsDotted &&
      (c.startAlone vars document).queries.asksTemplate) = false := by
    cases hdotted : (Entry.rule r).readsDotted with
    | false => rfl
    | true =>
      have hqueries : (c.startAlone vars document).queries = (c.start ps vars document).queries :=
        congrArg (Queries.ofDocument document) (ha.columns hdotted)
      rw [hqueries, not_asksTemplate_start]
      rfl
  have hvalues : r.values.run' (c.startAlone vars document) =
      r.values.run' (c.start ps vars document) := by
    refine Rule.run'_values_congr ha.texts fun source hraw hsource => ?_
    by_cases hq : source.querier = .jsdot
    · have hdotted : (Entry.rule r).readsDotted = true := by
        simp [Entry.readsDotted, hraw, hsource, hq]
      exact congrArg (fun columns => ((Queries.ofDocument document columns).open?
        source.querier).map (·.1)) (ha.columns hdotted)
    · exact Queries.open?_columns hq document _ _
  rw [settingText_rule hr, hasks, if_neg Bool.false_ne_true, hvalues, firstValue_eq h]

/-- A modifier without a pattern makes the same text whatever the variables are. -/
theorem readsAlike_plain [Host] (hm : r.modifier.pattern.getD [] = []) (hc : c.PlainColumns)
    (h : c.resolveParams vars none = .ok ps) (document : SourceDocument) :
    c.ReadsAlike r vars ps document where
  columns := fun _ => hc.writtenColumns h
  texts := fun s _ => congrArg (Except.mapError Failure.notWhole)
    (Modifier.evaluate_plain hm s.subject _ _ s.lookup s.asXml)

/-- **A setting on its own agrees with the whole** when it is given what the parameters give: a
templated parameter the parameters before it, an entry the resolved parameters. Without them it
agrees when it reads none of them. -/
theorem settingText_agrees [Host] (h : c.resolveParams vars none = .ok ps) :
    (∀ name m, Pairs.get? name c.params = some (.template m) →
      ∃ s, Pairs.get? name ps = some (textOrNull s) ∧
        c.settingText "params" name (vars.merge (Pairs.before name ps)) none = .ok s ∧
        (c.Overlooks (Pairs.keys (Pairs.before name ps)) (.ofPairs vars) m →
          c.settingText "params" name vars none = .ok s)) ∧
    ∀ path r document, c.entry? path = some (.rule r) →
      (c.withValues ps).settingText "mapping" path (ps.merge vars) (some document) =
        c.firstValue r vars document ∧
      (c.ReadsAlike r vars ps document →
        c.settingText "mapping" path vars (some document) = c.firstValue r vars document) := by
  constructor
  · intro name m hm
    obtain ⟨s, hget, hs⟩ := settingText_param h hm
    exact ⟨s, hget, hs, fun ho => (ho.settingText hm).trans hs⟩
  · intro path r document hr
    exact ⟨settingText_withValues h hr document, fun ha => ha.settingText h hr⟩

/-- A mapping whose entry writes a derived parameter before what it reads. -/
def derivedBefore : Config :=
  citing [("a", .text "x"), ("b", .template (compile "\x7b\x7b a \x7d\x7d/y"))] (some ⟨.jsdot, "id"⟩)
    (compile "\x7b\x7b b \x7d\x7d/\x7b\x7b value \x7d\x7d")

theorem resolveParams_derivedBefore :
    derivedBefore.resolveParams [] none = .ok [("a", .str "x"), ("b", .str "x/y")] := by
  have hb : Rule.evaluate (compile "\x7b\x7b a \x7d\x7d/y") .none ⟨[("a", some "x")], []⟩ none false =
      .ok (some "x/y") := by decide +kernel
  refine resolveFrom_cons_eq_ok.2 ⟨_, rfl, _, resolveFrom_cons_eq_ok.2 ⟨_, ?_, _, rfl, rfl⟩, rfl⟩
  exact (resolveParam_template _ _).trans (congrArg (Except.map textOrNull) hb)

theorem settingText_agrees_derived :
    derivedBefore.settingText "params" "b" [("a", .str "x")] none = .ok (some "x/y") ∧
      (derivedBefore.withValues [("a", .str "x"), ("b", .str "x/y")]).settingText "mapping" "id"
        [("a", .str "x"), ("b", .str "x/y")] (some (.data (.map [("id", .str "1")]))) =
          .ok (some "x/y/1") := by
  obtain ⟨hparams, hentries⟩ := settingText_agrees resolveParams_derivedBefore
  obtain ⟨s, hget, hs, -⟩ := hparams "b" _ rfl
  have hvalue : s = some "x/y".toList := by
    cases s with
    | none => cases hget
    | some t => exact congrArg some (Value.str.inj (Option.some.inj hget)).symm
  rw [hvalue] at hs
  refine ⟨hs, (hentries "id" _ (.data (.map [("id", .str "1")])) rfl).1.trans ?_⟩
  decide +kernel

/-- A mapping whose columns are named by two parameters, after the parameters `n` and `k`. -/
def columnsNamed (fields key : Param) : Config :=
  citing [("n", .text "f"), ("k", .text "k"), ("fields", fields), ("fields.key", key),
    ("fields.value", .text "v")] (some ⟨.jsdot, "fields[].x"⟩) .empty

/-- A list of records that is named by a template. -/
def listNamed : Config :=
  columnsNamed (.template (compile "\x7b\x7b n \x7d\x7d")) (.text "k")

/-- A member that is named by a template. -/
def memberNamed : Config :=
  columnsNamed (.text "f") (.template (compile "\x7b\x7b k \x7d\x7d"))

/-- A setting on its own misses the parameters: those that a template names, those that an entry
writes, and those that name the columns of an entry. -/
theorem settingText_without_params :
    (derivedBefore.settingText "params" "b" [] none = .ok none ∧
      (derivedBefore.resolveParams [] none).map (fun ps => ps.map fun p => p.2.scalarText) =
        .ok ["x", "x/y"]) ∧
    (derivedBefore.settingText "mapping" "id" [] (some (.data (.map [("id", .str "1")]))) =
        .ok (some "/1") ∧
      derivedBefore.convert [] (.data (.map [("id", .str "1")])) =
        .ok [("dcterms:source", ["x/y/1"])]) ∧
    (listNamed.settingText "mapping" "fields[].x" [] (some twoLists) = .ok none ∧
      listNamed.convert [] twoLists = .ok [("dcterms:source", ["1"])]) ∧
    memberNamed.settingText "mapping" "fields[].x" [] (some twoLists) = .error .templateColumn ∧
      memberNamed.convert [] twoLists = .ok [("dcterms:source", ["1"])] := by
  decide +kernel

end Config
end Crosswalk
