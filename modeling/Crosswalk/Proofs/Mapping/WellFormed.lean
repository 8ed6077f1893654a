import Crosswalk.Host.Bundled
import Crosswalk.Proofs.Destination.Descriptor
import Crosswalk.Proofs.Mapping.Built

/-!
# Mappings are well formed

Whatever its text says, and whatever it includes or stands over, a loaded mapping is well formed:

    l.load name fallback text = .ok c → c.WellFormed l.resolver.datatypes          (wellFormed_load)

Entries are sound one by one, so that an entry may be taken from one mapping to another, and the
problems of a mapping only become more. A line and a map each give such entries; composition over a
base mapper keeps them.
-/

namespace Crosswalk

open Text

/-! ## What is well formed -/

/-- A modifier whose parts fit together, with a flag for each filter expression. -/
structure Modifier.Sound (m : Modifier) : Prop where
  parts : m.fault? = none
  flags : m.hasReplace.length = m.filters.length

/-- Datatypes without repetitions, each registered or of a custom vocabulary. -/
structure Datatypes.Canonical (d : Datatypes) (names : List Text) : Prop where
  nodup : names.Nodup
  known : ∀ n ∈ names, n ∈ d.names ∨ startsWith customMark n = true

structure Rule.Sound (d : Datatypes) (r : Rule) : Prop where
  datatypes : d.Canonical r.destination.datatypes
  modifier : r.modifier.Sound

namespace Entry

def source? (e : Entry) : Option Source := e.rule?.bind Rule.source

def destination? (e : Entry) : Option Destination := e.rule?.map Rule.destination

/-- An entry has either a problem, which is one of the mapping, or a destination. -/
structure Sound (d : Datatypes) (problems : List Problem) (e : Entry) : Prop where
  exclusive : e.problem?.isSome = !e.destination?.isSome
  reported : ∀ p ∈ e.problem?, p ∈ problems
  rule : ∀ r ∈ e.rule?, r.Sound d

end Entry

namespace Config

/-- The entries of all sections. -/
def entries (c : Config) : List Entry :=
  c.default ++ c.mapping ++ c.autofillers.flatMap fun p => p.2.mapping

structure WellFormed (d : Datatypes) (c : Config) : Prop where
  sourceless : ∀ e ∈ c.default, e.source? = none
  entries : ∀ e ∈ c.entries, e.Sound d c.problems
  params : ∀ p ∈ c.params, ∀ m, p.2 = .template m → m.Sound
  errors : c.hasError = true → c.problems.map Problem.message ≠ []

end Config

/-! ## Modifiers -/

namespace Modifier

theorem sound_empty : empty.Sound := ⟨rfl, rfl⟩

theorem sound_ofRaw (s : Text) : (ofRaw s).Sound := ⟨rfl, rfl⟩

theorem sound_ofVal (s : Text) : (ofVal s).Sound := ⟨rfl, rfl⟩

/-- A modifier that gives no fixed text is sound when each expression has its flag. -/
theorem sound_of_flags {m : Modifier} (hm : m.isLiteral = false)
    (h : m.hasReplace.length = m.filters.length) : m.Sound where
  parts := by
    have hraw : m.raw.isSome = false := by
      simpa [isLiteral] using (Bool.or_eq_false_iff.1 hm).1
    simp [fault?, hm, hraw, h]
  flags := h

theorem sound_compileTemplate (a body b : Text) : (Template.compileTemplate a body b).Sound :=
  sound_of_flags rfl (by simp [Template.compileTemplate])

/-- **Compiled patterns** are sound. -/
theorem sound_compile (pattern : Text) : (Template.compile pattern).Sound := by
  unfold Template.compile
  dsimp only
  split
  · exact sound_empty
  · split
    · exact sound_ofRaw _
    · split
      · exact sound_of_flags rfl rfl
      · split
        · exact sound_ofVal _
        · exact sound_compileTemplate _ _ _

theorem sound_compile? (pattern : Option Text) : (Template.compile? pattern).Sound := by
  cases pattern with
  | none => exact sound_empty
  | some s => exact sound_compile s

/-- More text around a template leaves its expressions and their flags. -/
theorem Sound.around {m : Modifier} (h : m.Sound) (hm : m.isLiteral = false) (before after : Text) :
    (m.around before after).Sound :=
  sound_of_flags hm h.flags

theorem sound_modifierOf (mod : Option Xml.Node) : (modifierOf mod).Sound := by
  cases mod with
  | none => exact sound_empty
  | some n =>
    unfold modifierOf
    dsimp only
    split
    · exact sound_ofRaw _
    · exact sound_ofVal _
    · split
      · exact sound_compile? _
      · next h => exact (sound_compile? _).around (Bool.eq_false_iff.2 h) _ _

end Modifier

theorem sound_paramValue {text : Option Text} {m : Modifier} (h : paramValue text = .template m) :
    m.Sound := by
  have hwords : ∀ p ∈ paramWords, p.2 ≠ .template m := by
    intro p hp
    simp only [paramWords, List.mem_cons, List.not_mem_nil, or_false] at hp
    obtain rfl | rfl | rfl := hp <;> exact Param.noConfusion
  cases text with
  | none => cases h
  | some t =>
    unfold paramValue at h
    dsimp only at h
    split at h
    · cases h
    · split at h
      · exact Param.template.inj h ▸ Modifier.sound_compile _
      · cases hw : paramWords.lookup (lower (trim t)) with
        | none =>
          rw [hw] at h
          cases h
        | some p =>
          rw [hw] at h
          obtain ⟨before, after, hsplit, -⟩ := List.lookup_eq_some_iff.1 hw
          exact absurd h (hwords _ (hsplit ▸ List.mem_append_cons_self))

/-! ## Destinations -/

namespace Datatypes

variable {d : Datatypes} {name s : Text}

theorem known_ofShort (h : d.ofShort name = some s) : s ∈ d.names := by
  unfold ofShort at h
  split at h
  · next n hone =>
    have hmem : n ∈ (distinct d.names).filter fun n => shortName? n == some name :=
      hone ▸ List.mem_singleton.2 rfl
    exact Option.some.inj h ▸ mem_distinct.1 (List.mem_filter.1 hmem).1
  · cases h

theorem known_ofCustom (h : d.ofCustom name = some s) : startsWith customMark s = true := by
  unfold ofCustom at h
  split at h
  · cases h
  · split at h
    · exact Option.some.inj h ▸ startsWith_append _ _
    · split at h
      · exact Option.some.inj h ▸ startsWith_append _ _
      · exact Option.some.inj h ▸ startsWith_append _ _

theorem known_canonical (h : d.canonical name = some s) :
    s ∈ d.names ∨ startsWith customMark s = true := by
  unfold canonical at h
  dsimp only at h
  split at h
  · exact .inr (known_ofCustom h)
  · split at h
    · next hmem => exact .inl (Option.some.inj h ▸ List.elem_iff.1 hmem)
    · exact .inl (known_ofShort h)

theorem canonical_canonicalize (d : Datatypes) (names : List Text) :
    d.Canonical (d.canonicalize names) where
  nodup := nodup_distinct _
  known := fun n hn => by
    obtain ⟨name, -, h⟩ := List.mem_filterMap.1 (mem_distinct.1 hn)
    exact known_canonical h

end Datatypes

namespace Resolver

variable {r : Resolver} {text : Text} {d : Descriptor}

theorem canonical_build {field : Text} {names : List Text} {language : Option Text}
    {visibility : Option Visibility} {written : Option Text} {x : Destination}
    (h : r.build field names language visibility written = .ok x) :
    r.datatypes.Canonical x.datatypes := by
  obtain ⟨term, -, rfl⟩ := map_eq_ok.1 h
  exact Datatypes.canonical_canonicalize _ _

theorem canonical_resolve (h : r.resolve text = .ok (some d)) :
    r.datatypes.Canonical d.destination.datatypes := by
  obtain ⟨_, _, -, hbuild, -⟩ := resolve_eq_some_iff.1 h
  exact canonical_build hbuild

theorem canonical_resolveAll (h : .ok d ∈ r.resolveAll text) :
    r.datatypes.Canonical d.destination.datatypes := by
  obtain ⟨part, -, hpart⟩ := List.mem_filterMap.1 h
  cases hr : r.resolve part with
  | error e =>
    rw [hr] at hpart
    cases hpart
  | ok o =>
    cases o with
    | none =>
      rw [hr] at hpart
      cases hpart
    | some d' =>
      rw [hr] at hpart
      obtain rfl := Except.ok.inj (Option.some.inj hpart)
      exact canonical_resolve hr

end Resolver

/-! ## Entries -/

namespace Entry

variable {d : Datatypes} {es : List Entry} {e : Entry}

/-- Entries are sound in a mapping that reports their problems. -/
theorem sound_of_rules (h : ∀ r, .rule r ∈ es → r.Sound d) {reports : List Problem}
    (hsub : problems es ⊆ reports) : ∀ e ∈ es, e.Sound d reports := by
  intro e he
  cases e with
  | rule r =>
    refine ⟨rfl, fun p hp => (nomatch hp), fun r' hr => ?_⟩
    exact Option.some.inj hr ▸ h r he
  | faulty p =>
    refine ⟨rfl, fun p' hp => hsub ?_, fun r hr => (nomatch hr)⟩
    exact List.mem_filterMap.2 ⟨_, he, hp⟩

theorem Sound.mono {reports more : List Problem} (h : e.Sound d reports) (hsub : reports ⊆ more) :
    e.Sound d more :=
  ⟨h.exclusive, fun p hp => hsub (h.reported p hp), h.rule⟩

end Entry

section

variable {r : Resolver} {q : Querier} {default : Bool} {x : Rule}

theorem rule_mem_entriesOf {source : Option Source}
    {found : List (Except UnknownField Descriptor)} (h : .rule x ∈ entriesOf source found) :
    ∃ d, .ok d ∈ found ∧ x = ⟨source, d.destination, Template.compile? d.pattern⟩ := by
  unfold entriesOf at h
  rcases List.mem_append.1 h with h | h
  · obtain ⟨f, hf, hx⟩ := List.mem_filterMap.1 h
    cases f with
    | error e => cases hx
    | ok d => exact ⟨d, hf, (Entry.rule.inj (Option.some.inj hx)).symm⟩
  · obtain ⟨f, -, hx⟩ := List.mem_filterMap.1 h
    cases f with
    | error e => cases hx
    | ok d => cases hx

/-- **A rule on a line** fills what a descriptor resolves to, and reads by the querier of the
mapping, if it reads at all. -/
theorem rule_mem_readLine {line : Text} (h : .rule x ∈ readLine r q default line) :
    ∃ text d, .ok d ∈ r.resolveAll text ∧ x.destination = d.destination ∧
      x.modifier = Template.compile? d.pattern ∧
      ∀ s ∈ x.source, default = false ∧ s.querier = q := by
  have hfaulty : ∀ p, Entry.rule x ∉ [Entry.faulty p] := by
    intro p hx
    cases List.mem_singleton.1 hx
  unfold readLine at h
  dsimp only at h
  split at h
  · exact absurd h (hfaulty _)
  · next l _ =>
    split at h
    · exact absurd h (hfaulty _)
    · split at h
      · exact absurd h (hfaulty _)
      · split at h
        · exact absurd h (hfaulty _)
        · obtain ⟨d, hd, rfl⟩ := rule_mem_entriesOf h
          refine ⟨_, d, hd, rfl, rfl, fun s hs => ?_⟩
          dsimp only at hs
          split at hs
          · cases hs
          · next hbare =>
            obtain rfl := Option.some.inj hs
            refine ⟨?_, rfl⟩
            cases default with
            | false => rfl
            | true => exact absurd rfl hbare

theorem rule_mem_readLines {lines : List Text} (h : .rule x ∈ readLines r q default lines) :
    x.Sound r.datatypes ∧ ∀ s ∈ x.source, default = false ∧ s.querier = q := by
  obtain ⟨line, -, hx⟩ := List.mem_flatMap.1 h
  obtain ⟨text, d, hd, hdestination, hmodifier, hsource⟩ := rule_mem_readLine hx
  refine ⟨⟨?_, ?_⟩, hsource⟩
  · exact hdestination ▸ Resolver.canonical_resolveAll hd
  · exact hmodifier ▸ Modifier.sound_compile? _

/-- **A rule of a map** reads nothing when its map does. -/
theorem rule_ofMap {index : Nat} {element : Xml.Node}
    (h : Entry.ofMap r index element = .rule x) :
    x.Sound r.datatypes ∧ (readsNothing element = true → x.source = none) := by
  unfold Entry.ofMap at h
  split at h
  · cases h
  · next source hsource =>
    split at h
    · next target c field _ _ =>
      dsimp only at h
      split at h
      · next d hd =>
        obtain rfl := Entry.rule.inj h
        obtain ⟨built, hbuilt, rfl⟩ := map_eq_ok.1 hd
        refine ⟨⟨?_, Modifier.sound_modifierOf _⟩, fun hnone => ?_⟩
        · have hcanonical : r.datatypes.Canonical built.datatypes := Resolver.canonical_build hbuilt
          exact hcanonical
        · unfold sourceOf at hsource
          rw [Option.isNone_iff_eq_none.1 hnone] at hsource
          exact (Except.ok.inj hsource).symm
      · cases h
    · cases h

theorem source?_eq_none {e : Entry} (h : ∀ x, e = .rule x → x.source = none) :
    e.source? = none := by
  cases e with
  | rule x => exact h x rfl
  | faulty p => rfl

end

/-! ## Mappings -/

namespace Config

variable {d : Datatypes} {c : Config}

theorem errors_of_hasError (h : c.hasError = true) : c.problems.map Problem.message ≠ [] := by
  intro hnil
  rw [hasError, List.map_eq_nil_iff.1 hnil] at h
  cases h

theorem WellFormed.empty (d : Datatypes) (i : Info) (problems : List Problem) :
    WellFormed d { Config.empty with info := i, problems := problems } where
  sourceless := fun _ he => absurd he List.not_mem_nil
  entries := fun _ he => absurd he List.not_mem_nil
  params := fun _ hp => absurd hp List.not_mem_nil
  errors := errors_of_hasError

theorem mem_entries {e : Entry} : e ∈ c.entries ↔
    e ∈ c.default ∨ e ∈ c.mapping ∨ ∃ p ∈ c.autofillers, e ∈ p.2.mapping := by
  simp [entries]

/-- A mapping that is written in lines is well formed. -/
theorem wellFormed_ofItems (r : Resolver) (name : Option Text) (items : List Item) :
    (ofItems r name items).WellFormed r.datatypes where
  sourceless := fun e he => by
    refine source?_eq_none fun x hx => ?_
    cases hs : x.source with
    | none => rfl
    | some s => cases ((rule_mem_readLines (hx ▸ he)).2 s hs).1
  entries := by
    refine Entry.sound_of_rules (fun x hx => ?_) fun p hp => ?_
    · rcases mem_entries.1 hx with hx | hx | ⟨block, hblock, hx⟩
      · exact (rule_mem_readLines hx).1
      · exact (rule_mem_readLines hx).1
      · obtain ⟨header, -, rfl⟩ := List.mem_map.1 hblock
        exact (rule_mem_readLines hx).1
    · obtain ⟨e, he, hp⟩ := List.mem_filterMap.1 hp
      have hproblems : ∀ es : List Entry, e ∈ es → p ∈ Entry.problems es :=
        fun es hes => List.mem_filterMap.2 ⟨e, hes, hp⟩
      show p ∈ _ ++ _ ++ _ ++ _ ++ Entry.problems _ ++ Entry.problems _ ++ List.flatMap _ _
      simp only [List.mem_append, List.mem_flatMap]
      rcases mem_entries.1 he with he | he | ⟨block, hblock, he⟩
      · exact .inl (.inl (.inr (hproblems _ he)))
      · exact .inl (.inr (hproblems _ he))
      · exact .inr ⟨block, hblock, hproblems _ he⟩
  params := fun p hp m hm => by
    obtain ⟨q, -, rfl⟩ := List.mem_map.1 hp
    exact sound_paramValue hm
  errors := errors_of_hasError

/-- A mapping that is written in xml is well formed. -/
theorem wellFormed_ofRoot (r : Resolver) (name : Option Text) (root : Xml.Node) :
    (ofRoot r name root).WellFormed r.datatypes where
  sourceless := fun e he => by
    obtain ⟨entry, hentry, rfl⟩ := List.mem_map.1 he
    obtain ⟨hentry, hnothing⟩ := List.mem_filter.1 hentry
    obtain ⟨map, -, rfl⟩ := List.mem_map.1 hentry
    exact source?_eq_none fun x hx => (rule_ofMap hx).2 hnothing
  entries := by
    have hmaps : ∀ e ∈ (ofRoot r name root).entries,
        e ∈ ((mapsOf root).map fun p => (readsNothing p.2, Entry.ofMap r p.1 p.2)).map (·.2) := by
      intro e he
      rcases mem_entries.1 he with he | he | ⟨block, hblock, -⟩
      · exact List.map_subset _ (List.filter_subset_self _) he
      · exact List.map_subset _ (List.filter_subset_self _) he
      · exact absurd hblock List.not_mem_nil
    refine Entry.sound_of_rules (fun x hx => ?_) fun p hp => ?_
    · obtain ⟨entry, hentry, hx⟩ := List.mem_map.1 (hmaps _ hx)
      obtain ⟨map, -, rfl⟩ := List.mem_map.1 hentry
      exact (rule_ofMap hx).1
    · obtain ⟨e, he, hp⟩ := List.mem_filterMap.1 hp
      exact List.mem_append_right _ (List.mem_filterMap.2 ⟨e, hmaps e he, hp⟩)
  params := fun p hp m hm => by
    obtain ⟨q, -, rfl⟩ := List.mem_map.1 hp
    have hvalue : paramValue (some q.2) = .template m := hm
    exact sound_paramValue hvalue
  errors := errors_of_hasError

theorem wellFormed_ofXml [Host] (r : Resolver) (name : Option Text) (text : Text) :
    (ofXml r name text).WellFormed r.datatypes := by
  unfold ofXml
  split
  · exact wellFormed_ofRoot r name _
  · exact .empty _ _ _

/-- More problems leave a mapping well formed. -/
theorem WellFormed.report (h : c.WellFormed d) (p : Problem) :
    WellFormed d { c with problems := c.problems ++ [p] } where
  sourceless := h.sourceless
  entries := fun e he => (h.entries e he).mono (List.subset_append_left _ _)
  params := h.params
  errors := errors_of_hasError

/-- Composition makes no entries of its own. -/
theorem mem_entries_compose {base child : Config} {e : Entry}
    (he : e ∈ (base.compose child).entries) : e ∈ base.entries ∨ e ∈ child.entries := by
  have hjoined : ∀ es es' : List Entry, e ∈ distinctOn Entry.written (es ++ es') →
      e ∈ es ∨ e ∈ es' :=
    fun _ _ h => List.mem_append.1 ((distinctOn_sublist _ _).subset h)
  simp only [mem_entries] at he ⊢
  rcases he with he | he | ⟨block, hblock, he⟩
  · exact (hjoined _ _ he).imp .inl .inl
  · exact (hjoined _ _ he).imp (.inr ∘ .inl) (.inr ∘ .inl)
  · rcases Pairs.mem_merge hblock with hblock | hblock
    · exact .inl (.inr (.inr ⟨block, hblock, he⟩))
    · exact .inr (.inr (.inr ⟨block, hblock, he⟩))

/-- **Composition** takes entries and parameters from well-formed mappings, with all problems. -/
theorem WellFormed.compose {base child : Config} (hb : base.WellFormed d) (hc : child.WellFormed d) :
    (base.compose child).WellFormed d where
  sourceless := fun e he => by
    rcases List.mem_append.1 ((distinctOn_sublist _ _).subset he) with he | he
    · exact hb.sourceless e he
    · exact hc.sourceless e he
  entries := fun e he => by
    rcases mem_entries_compose he with he | he
    · exact (hb.entries e he).mono (List.subset_append_left _ _)
    · exact (hc.entries e he).mono (List.subset_append_right _ _)
  params := fun p hp m hm => by
    rcases Pairs.mem_merge hp with hp | hp
    · exact hb.params p hp m hm
    · exact hc.params p hp m hm
  errors := errors_of_hasError

end Config

/-! ## Loading -/

namespace Loader

variable {l : Loader} {p : Page} {bases : Nat} {c : Config}

theorem wellFormed_alone [Host] (h : l.alone bases p = .ok c) :
    c.WellFormed l.resolver.datatypes := by
  cases hp : p.isMarkup with
  | true =>
    rw [alone_markup hp] at h
    obtain ⟨s, -, rfl⟩ := map_eq_ok.1 h
    exact Config.wellFormed_ofXml l.resolver p.name s
  | false =>
    rw [alone_plain hp, written, hp] at h
    obtain rfl := Except.ok.inj h
    split
    · exact .empty _ _ _
    · exact Config.wellFormed_ofItems l.resolver p.name _

theorem Built.wellFormed [Host] (h : Built l bases p c) : c.WellFormed l.resolver.datatypes := by
  induction h with
  | single hown _ => exact wellFormed_alone hown
  | missing hown _ _ => exact (wellFormed_alone hown).report _
  | composed hown _ _ _ ih => exact ih.compose (wellFormed_alone hown)

/-- **A loaded mapping is well formed**, whatever its text, its base mappers and its includes. -/
theorem wellFormed_load [Host] {name fallback : Option Text} {text : Text}
    (h : l.load name fallback text = .ok c) : c.WellFormed l.resolver.datatypes :=
  (within_eq_ok (p := ⟨name, fallback, text⟩).1 h).wellFormed

/-- Maps of which one has no path. -/
def faultyBase : Text :=
  "<mapping><map><from jsdot='t'/><to field='dcterms:title' datatype='literal literal'/></map>" ++
    "<map><from/></map></mapping>"

/-- Lines of which one has no source, over those maps. -/
def faultyLines : Text :=
  "[info]\nmapper = mapping:a\n[default]\ndcterms:type = 'Text'\n[mapping]\n" ++
    "id = dcterms:identifier ~ \x7b\x7b value|upper \x7d\x7d\n= x\n[a:b]\nid = dcterms:source"

/-- A loader with the maps under an identifier. -/
def faultyLoader : Loader where
  resolver := ⟨⟨[], [], [], ["literal"]⟩, false, []⟩
  store := ⟨[], [], [("a", faultyBase)], []⟩
  maxDepth := 1

theorem wellFormed_load_faulty :
    ∃ c, faultyLoader.load none none faultyLines = .ok c ∧
      c.WellFormed faultyLoader.resolver.datatypes ∧ c.entries.length = 6 ∧
      c.problems.map Problem.message =
        ["The map \"2\" has no path.", "The map \"= x\" has no source."] := by
  obtain ⟨c, hc, hparts⟩ := map_eq_ok.1 (by decide +kernel :
    (faultyLoader.load none none faultyLines).map
      (fun c => (c.entries.length, c.problems.map Problem.message)) =
        .ok (6, ["The map \"2\" has no path.", "The map \"= x\" has no source."]))
  obtain ⟨hlength, hproblems⟩ := Prod.mk.inj hparts
  exact ⟨c, hc, wellFormed_load hc, hlength, hproblems⟩

end Loader
end Crosswalk
