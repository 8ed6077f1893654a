import Crosswalk.Host.Bundled
import Crosswalk.Proofs.Destination.Descriptor
import Crosswalk.Proofs.Mapping.WellFormed
import Crosswalk.Proofs.Record.Shared
import Crosswalk.Proofs.Text.Quote

/-!
# Lines with several targets

A destination may list several targets, joined with bars. Every target is resolved on its own
(`Resolver.entry?`), all of them with the source of the line, so that the entries of the line are

    w.entries r q default = w.targets.filterMap (r.entry? (w.reading q default))

with the rules before the problems (`readLine_fanOut`). A target that is no descriptor has no
entry. A line without entries has one for the problem of its destination, which tells of all
targets; beside another entry such a target leaves no trace (`readLine_lost`).
-/

namespace Crosswalk

open Text

/-! ## Targets -/

/-- A line whose destination lists targets. It has neither quotes behind the source nor a pattern,
and no target is blank. -/
structure FanOut where
  line : Text
  source : Text
  alone : Bool
  targets : List Text
  split : splitLine line = some ⟨source, joinWith ['|'] targets, alone⟩
  source_ne : source ≠ []
  targets_ne : targets ≠ []
  unpatterned : (splitPattern (joinWith ['|'] targets)).2 = none
  target_ne : ∀ t ∈ targets, trim t ≠ []
  target_unquoted : ∀ t ∈ targets, t.any isQuoteMark = false
  target_single : ∀ t ∈ targets, '|' ∉ t

theorem splitPattern_of_not_mem {s : Text} (h : '~' ∉ s) : splitPattern s = (s, none) := by
  rw [splitPattern, cutOutside?_of_not_mem h]

theorem cutOutside?_of_splitPattern {s : Text} (h : (splitPattern s).2 = none) :
    cutOutside? '~' s = none := by
  cases hcut : cutOutside? '~' s with
  | none => rfl
  | some p =>
    rw [splitPattern, hcut] at h
    cases h

namespace Resolver

variable {r : Resolver} {target : Text}

theorem resolve_trim (r : Resolver) (target : Text) : r.resolve (trim target) = r.resolve target := by
  have htrim : trim (trim target) = trim target := (trimmed_trimOf isBlank target).trimOf_eq
  unfold resolve
  rw [htrim]

theorem pattern_resolve {d : Descriptor} (h : '~' ∉ target) (hd : r.resolve target = .ok (some d)) :
    d.pattern = none := by
  have htrim : '~' ∉ trim target := fun hmem => h (mem_of_mem_trimOf hmem)
  obtain ⟨_, _, -, -, hpattern⟩ := resolve_eq_some_iff.1 hd
  rw [hpattern, splitPattern_of_not_mem htrim]
  rfl

/-- What is found of a target, unless it is no descriptor. -/
def found? (r : Resolver) (target : Text) : Option (Except UnknownField Descriptor) :=
  match r.resolve target with
  | .ok none => none
  | .ok (some d) => some (.ok d)
  | .error e => some (.error e)

theorem found?_eq_ok {d : Descriptor} :
    r.found? target = some (.ok d) ↔ r.resolve target = .ok (some d) := by
  unfold found?
  split <;> simp_all

theorem found?_trim (r : Resolver) (target : Text) : r.found? (trim target) = r.found? target := by
  rw [found?, resolve_trim]
  rfl

theorem resolveAll_eq (r : Resolver) (text : Text) :
    r.resolveAll text = (fanOut text).filterMap r.found? := rfl

/-- The entry of what is found of a target without pattern. -/
def entryOf (source : Option Source) : Except UnknownField Descriptor → Entry
  | .ok d => .rule ⟨source, d.destination, .empty⟩
  | .error e => .faulty (.unknownField e)

/-- The entry of a target: a rule, or the problem of its field. A target that is no descriptor has
none. -/
def entry? (r : Resolver) (source : Option Source) (target : Text) : Option Entry :=
  (r.found? target).map (entryOf source)

theorem entry?_eq_none {source : Option Source} :
    r.entry? source target = none ↔ r.resolve target = .ok none := by
  unfold entry? found?
  split <;> simp_all

end Resolver

/-! ## Entries of what is found -/

open Resolver (entryOf)

/-- Without patterns, the entries are the ones of each target, the rules first. -/
theorem entriesOf_eq (source : Option Source) {found : List (Except UnknownField Descriptor)}
    (h : ∀ d, .ok d ∈ found → d.pattern = none) :
    entriesOf source found =
      (found.map (entryOf source)).filter (fun e => e.rule?.isSome) ++
        (found.map (entryOf source)).filter (fun e => e.problem?.isSome) := by
  have hmap : ∀ p : Entry → Bool, (found.map (entryOf source)).filter p =
      found.filterMap fun f => (some (entryOf source f)).filter p := fun p => by
    rw [← List.filterMap_eq_map, List.filter_filterMap]
    rfl
  rw [entriesOf, hmap, hmap]
  refine congrArg₂ (· ++ ·) ?_ ?_ <;> refine List.filterMap_congr fun f hf => ?_
  · cases f with
    | ok d =>
      show some (Entry.rule ⟨source, d.destination, Template.compile? d.pattern⟩) = _
      rw [h d hf]
      rfl
    | error e => rfl
  · cases f <;> rfl

theorem problems_entriesOf (source source' : Option Source)
    (found : List (Except UnknownField Descriptor)) :
    Entry.problems (entriesOf source found) = Entry.problems (entriesOf source' found) := by
  unfold entriesOf Entry.problems
  simp only [List.filterMap_append, List.filterMap_filterMap]
  refine congrArg (· ++ _) (List.filterMap_congr fun f _ => ?_)
  cases f <;> rfl

/-- The problems of a line do not depend on how its source is read. -/
theorem problems_readLine (r : Resolver) (q q' : Querier) (default default' : Bool) (line : Text) :
    Entry.problems (readLine r q default line) = Entry.problems (readLine r q' default' line) := by
  unfold readLine
  cases splitLine line with
  | none => rfl
  | some l =>
    dsimp only
    split
    · rfl
    · split
      · rfl
      · split
        · rfl
        · exact problems_entriesOf _ _ _

/-! ## Entries of the targets -/

namespace FanOut

variable (w : FanOut)

def destination : Text := joinWith ['|'] w.targets

/-- What all entries of the line read. -/
def reading (q : Querier) (default : Bool) : Option Source :=
  if default || w.alone || w.source == noSource then none else some ⟨q, w.source⟩

/-- The entries of the targets, in the order of the line. -/
def entries (r : Resolver) (q : Querier) (default : Bool) : List Entry :=
  w.targets.filterMap (r.entry? (w.reading q default))

theorem not_isQuoteMark : ∀ c ∈ w.destination, isQuoteMark c = false := by
  intro c hc
  rcases mem_joinWith hc with rfl | ⟨t, ht, hc⟩
  · decide
  · exact Bool.eq_false_iff.2 (List.any_eq_false.1 (w.target_unquoted t ht) c hc)

theorem tilde_not_mem : '~' ∉ w.destination :=
  not_mem_of_cutOutside? w.not_isQuoteMark (cutOutside?_of_splitPattern w.unpatterned)

theorem cutsAt_destination : cutsAt (· == '|') w.destination = w.targets :=
  cutsAt_joinWith (by decide) w.targets_ne fun t ht _ hc =>
    beq_false_of_ne (ne_of_mem_of_not_mem hc (w.target_single t ht))

theorem tilde_not_mem_target : ∀ t ∈ w.targets, '~' ∉ t := by
  intro t ht hc
  rw [← w.cutsAt_destination] at ht
  exact w.tilde_not_mem (mem_of_mem_cutsAt ht _ hc)

/-- A single target is the destination; two have a bar between them. -/
theorem fanOut_destination : Resolver.fanOut w.destination = w.targets ∨
    Resolver.fanOut w.destination = w.targets.map trim := by
  have hpattern := splitPattern_of_not_mem w.tilde_not_mem
  unfold Resolver.fanOut
  simp only [hpattern, Option.isSome_none, Bool.false_or, decide_eq_true_eq]
  split
  · next hbar =>
    refine .inl ?_
    have hsingle : cutsAt (· == '|') w.destination = [w.destination] :=
      cutsAt_of_forall fun c hc => beq_false_of_ne (ne_of_mem_of_not_mem hc hbar)
    rw [← hsingle, w.cutsAt_destination]
  · refine .inr ?_
    rw [w.cutsAt_destination, List.filter_eq_self.2]
    intro s hs
    obtain ⟨t, ht, rfl⟩ := List.mem_map.1 hs
    exact bne_iff_ne.2 (w.target_ne t ht)

/-- The targets are found one by one. -/
theorem resolveAll_destination (r : Resolver) :
    r.resolveAll w.destination = w.targets.filterMap r.found? := by
  rw [Resolver.resolveAll_eq]
  rcases w.fanOut_destination with h | h <;> rw [h]
  rw [List.filterMap_map]
  exact List.filterMap_congr fun t _ => r.found?_trim t

theorem destination_ne : w.destination ≠ [] := by
  intro hnil
  have hcuts := w.cutsAt_destination
  rw [hnil] at hcuts
  exact w.target_ne [] (hcuts ▸ List.mem_singleton_self []) rfl

theorem isQuoted_destination : isQuoted w.destination = false := by
  cases hd : w.destination with
  | nil => rfl
  | cons c s =>
    have hc : isQuoteMark c = false := w.not_isQuoteMark c (hd ▸ List.mem_cons_self)
    simp [isQuoted, hc]

/-- The entries are the ones of what is found. -/
theorem entries_eq (r : Resolver) (q : Querier) (default : Bool) :
    w.entries r q default = (r.resolveAll w.destination).map (entryOf (w.reading q default)) := by
  rw [resolveAll_destination, List.map_filterMap]
  rfl

theorem pattern_found (r : Resolver) :
    ∀ d, .ok d ∈ r.resolveAll w.destination → d.pattern = none := by
  intro d hd
  rw [resolveAll_destination] at hd
  obtain ⟨t, ht, hfound⟩ := List.mem_filterMap.1 hd
  exact Resolver.pattern_resolve (w.tilde_not_mem_target t ht) (Resolver.found?_eq_ok.1 hfound)

/-- **A line with several targets** has the entries of its targets. -/
theorem readLine_eq (r : Resolver) (q : Querier) (default : Bool) :
    readLine r q default w.line =
      if w.entries r q default = [] then [.faulty (.invalidDestination w.line w.destination)]
      else (w.entries r q default).filter (fun e => e.rule?.isSome) ++
        (w.entries r q default).filter (fun e => e.problem?.isSome) := by
  have hsplit : splitLine w.line = some ⟨w.source, w.destination, w.alone⟩ := w.split
  rw [entries_eq]
  unfold readLine
  simp only [hsplit, if_neg w.source_ne, if_neg w.destination_ne, w.isQuoted_destination,
    Bool.false_eq_true, if_false, Bool.or_false, List.map_eq_nil_iff]
  have hfound := entriesOf_eq (w.reading q default) (w.pattern_found r)
  cases h : r.resolveAll w.destination with
  | nil => rfl
  | cons f fs =>
    rw [h] at hfound
    exact hfound

/-- A line with an entry of a target has the entries of all targets. -/
theorem perm_readLine {r : Resolver} {q : Querier} {default : Bool}
    (h : w.entries r q default ≠ []) :
    (readLine r q default w.line).Perm (w.entries r q default) := by
  have hproblem : ∀ e : Entry, e.problem?.isSome = !e.rule?.isSome := fun e => by cases e <;> rfl
  rw [readLine_eq, if_neg h]
  simp only [hproblem]
  exact List.filter_append_perm _ _

/-- **One entry for each target** is what a line has when every target is a descriptor, and when it
has one target. -/
theorem length_readLine (r : Resolver) (q : Querier) (default : Bool) :
    (readLine r q default w.line).length = w.targets.length ↔
      w.targets.length = 1 ∨ ∀ t ∈ w.targets, r.resolve t ≠ .ok none := by
  have hall : (w.entries r q default).length = w.targets.length ↔
      ∀ t ∈ w.targets, r.resolve t ≠ .ok none := by
    rw [entries, List.filterMap_length_eq_length]
    refine forall₂_congr fun t _ => ?_
    rw [Option.isSome_iff_ne_none, Ne, Resolver.entry?_eq_none]
  have htargets : w.targets.length ≠ 0 := mt List.length_eq_zero_iff.1 w.targets_ne
  have hle : (w.entries r q default).length ≤ w.targets.length := List.length_filterMap_le _ _
  rw [← hall]
  by_cases hnone : w.entries r q default = []
  · rw [readLine_eq, if_pos hnone, hnone, List.length_singleton, List.length_nil]
    omega
  · have hpos : (w.entries r q default).length ≠ 0 := mt List.length_eq_zero_iff.1 hnone
    rw [(w.perm_readLine hnone).length_eq]
    omega

/-- Every rule of the line reads the same source and writes what it reads as it is. -/
theorem rule_mem_readLine {x : Rule} {r : Resolver} {q : Querier} {default : Bool}
    (h : .rule x ∈ readLine r q default w.line) :
    x.source = w.reading q default ∧ x.modifier = .empty := by
  by_cases hnone : w.entries r q default = []
  · rw [readLine_eq, if_pos hnone] at h
    cases List.mem_singleton.1 h
  · have hmem : .rule x ∈ w.entries r q default := (w.perm_readLine hnone).subset h
    rw [entries_eq] at hmem
    obtain ⟨f, -, hf⟩ := List.mem_map.1 hmem
    cases f with
    | ok d =>
      obtain rfl := Entry.rule.inj hf
      exact ⟨rfl, rfl⟩
    | error e => cases hf

end FanOut

/-! ## Values and problems -/

/-- Rules differ in what they write by their sources, their modifiers and how they write nodes. -/
theorem Rule.values_congr [Host] {x y : Rule} (hsource : x.source = y.source)
    (hmodifier : x.modifier = y.modifier)
    (hxml : ∀ s ∈ x.source, x.writesXml s.querier = y.writesXml s.querier) :
    x.values = y.values := by
  have hdefault : x.defaultValues = y.defaultValues := by
    unfold defaultValues
    rw [hmodifier]
  unfold values
  rw [hdefault, ← hmodifier, ← hsource]
  split
  · next s _ hs =>
    unfold sourceValues valueOf
    rw [hmodifier, hxml s hs]
  · rfl

/-- The lines of all entries. -/
def linesOfEntries (items : List Item) : List Text :=
  linesOf .default items ++ linesOf .mapping items ++
    (blocksOf items).flatMap fun p => linesOf (.block p.1) items

/-- The problems of a line are problems of the mapping. -/
theorem Config.problems_readLine_subset {items : List Item} {line : Text}
    (h : line ∈ linesOfEntries items) (r : Resolver) (q : Querier) (default : Bool)
    (name : Option Text) :
    Entry.problems (readLine r q default line) ⊆ (ofItems r name items).problems := by
  intro p hp
  have hreported : ∀ {q' : Querier} {default' : Bool} {lines : List Text}, line ∈ lines →
      readLines r q' default' lines ⊆ (ofItems r name items).entries →
        p ∈ (ofItems r name items).problems := by
    intro q' default' lines hline hentries
    rw [problems_readLine r q q' default default'] at hp
    obtain ⟨e, he, hproblem⟩ := List.mem_filterMap.1 hp
    have hmem := hentries (List.mem_flatMap.2 ⟨line, hline, he⟩)
    exact ((wellFormed_ofItems r name items).entries e hmem).reported p hproblem
  simp only [linesOfEntries, List.mem_append, List.mem_flatMap] at h
  rcases h with (h | h) | ⟨block, hblock, h⟩
  · exact hreported h fun e he => mem_entries.2 (.inl he)
  · exact hreported h fun e he => mem_entries.2 (.inr (.inl he))
  · exact hreported h fun e he =>
      mem_entries.2 (.inr (.inr ⟨_, List.mem_map_of_mem hblock, he⟩))

/-! ## The entries of a line -/

/-- **A line with several targets** has the entries of its targets, the rules first, and a single
problem when no target has one. It has as many entries as targets if and only if every target is a
descriptor, or there is a single one. Its rules write the same values, wherever they stand among the
entries, and its problems are problems of the mapping. -/
theorem readLine_fanOut [Host] (r : Resolver) (q : Querier) (default : Bool) (w : FanOut) :
    (readLine r q default w.line =
      if w.entries r q default = [] then [.faulty (.invalidDestination w.line w.destination)]
      else (w.entries r q default).filter (fun e => e.rule?.isSome) ++
        (w.entries r q default).filter (fun e => e.problem?.isSome)) ∧
    ((readLine r q default w.line).length = w.targets.length ↔
      w.targets.length = 1 ∨ ∀ t ∈ w.targets, r.resolve t ≠ .ok none) ∧
    (∀ x y, .rule x ∈ readLine r q default w.line → .rule y ∈ readLine r q default w.line →
      x.writesXml q = y.writesXml q → ∀ start s, Alike start s →
        x.values.run' s = y.values.run' start) ∧
    ∀ name items, w.line ∈ linesOfEntries items →
      Entry.problems (readLine r q default w.line) ⊆ (Config.ofItems r name items).problems := by
  refine ⟨w.readLine_eq r q default, w.length_readLine r q default, ?_, ?_⟩
  · intro x y hx hy hxml start s halike
    obtain ⟨hsx, hmx⟩ := w.rule_mem_readLine hx
    obtain ⟨hsy, hmy⟩ := w.rule_mem_readLine hy
    have hquerier : ∀ s ∈ x.source, s.querier = q := by
      intro s hs
      rw [hsx, FanOut.reading] at hs
      split at hs
      · cases hs
      · exact Option.some.inj hs ▸ rfl
    rw [Rule.values_congr (hsx.trans hsy.symm) (hmx.trans hmy.symm) fun s hs => by
      rw [hquerier s hs, hxml]]
    exact y.steady_values.run'_eq halike
  · exact fun name items h => Config.problems_readLine_subset h r q default name

/-- A resolver that knows two terms. -/
def titleResolver : Resolver where
  register :=
    ⟨[("dcterms:title", "Dublin Core:Title"), ("dcterms:alternative", "Dublin Core:Alternative")],
      [], [], []⟩
  checkField := true
  overrides := []

/-- Two known fields and an unknown one. -/
def titleTargets : FanOut where
  line := "t = dcterms:title | foo:unknown|alternative"
  source := "t"
  alone := false
  targets := ["dcterms:title ", " foo:unknown", "alternative"]
  split := by decide +kernel
  source_ne := by decide
  targets_ne := by decide
  unpatterned := by decide +kernel
  target_ne := by decide +kernel
  target_unquoted := by decide +kernel
  target_single := by decide +kernel

/-- A destination with nothing but its field. -/
def titleOf (field written : Text) : Destination := ⟨field, none, [], none, none, some written⟩

theorem readLine_fanOut_titles :
    (readLine titleResolver .jsdot false titleTargets.line).length = 3 ∧
      (∃ x y : Rule, .rule x ∈ readLine titleResolver .jsdot false titleTargets.line ∧
        .rule y ∈ readLine titleResolver .jsdot false titleTargets.line ∧
        x.destination.field = "dcterms:title" ∧ y.destination.field = "dcterms:alternative" ∧
        ∀ start s, Alike start s → y.values.run' s = x.values.run' start) ∧
      .unknownField ⟨"foo:unknown"⟩ ∈
        (Config.ofItems titleResolver none [.line .mapping titleTargets.line]).problems := by
  obtain ⟨-, hlength, hvalues, hproblems⟩ := readLine_fanOut titleResolver .jsdot false titleTargets
  have hresolve : ∀ t ∈ titleTargets.targets, titleResolver.resolve t ≠ .ok none := by
    have hentry : ∀ t ∈ titleTargets.targets, titleResolver.entry? none t ≠ none := by decide +kernel
    exact fun t ht hnone => hentry t ht (Resolver.entry?_eq_none.2 hnone)
  have hproblem : .unknownField ⟨"foo:unknown"⟩ ∈
      Entry.problems (readLine titleResolver .jsdot false titleTargets.line) := by decide +kernel
  have hrule : ∀ d : Destination, d = titleOf "dcterms:title" "dcterms:title" ∨
      d = titleOf "dcterms:alternative" "alternative" →
        .rule ⟨some ⟨.jsdot, "t"⟩, d, .empty⟩ ∈
          readLine titleResolver .jsdot false titleTargets.line := by
    rintro d (rfl | rfl) <;> decide +kernel
  refine ⟨hlength.2 (.inr hresolve), ⟨_, _, hrule _ (.inl rfl), hrule _ (.inr rfl), rfl, rfl, ?_⟩,
    hproblems none _ (by decide +kernel) hproblem⟩
  exact hvalues _ _ (hrule _ (.inr rfl)) (hrule _ (.inl rfl)) (by decide)

/-- A field and a text that is none. -/
def titleOrNumber : FanOut where
  line := "t = dcterms:title|1x"
  source := "t"
  alone := false
  targets := ["dcterms:title", "1x"]
  split := by decide +kernel
  source_ne := by decide
  targets_ne := by decide
  unpatterned := by decide +kernel
  target_ne := by decide +kernel
  target_unquoted := by decide +kernel
  target_single := by decide +kernel

/-- The second target leaves neither an entry nor a problem. -/
theorem readLine_lost :
    titleOrNumber.targets.length = 2 ∧
      (readLine ⟨⟨[], [], [], []⟩, false, []⟩ .jsdot false titleOrNumber.line).length = 1 ∧
      (Config.ofLines ⟨⟨[], [], [], []⟩, false, []⟩ none
        ("[mapping]\n" ++ titleOrNumber.line)).problems = [] := by
  decide +kernel

end Crosswalk
