import Crosswalk.Host.Bundled
import Crosswalk.Proofs.Mapping.WellFormed

/-!
# Two readings of the name of a querier

The name of a querier is read twice. Entries that are written in lines take it without blanks
around it and in lower case (`querierOf`), the mapping itself as it stands in `info`
(`Config.querier`):

    ∀ s ∈ c.sources, s.querier = (querierOf c.info.querier).1
    (∀ s ∈ c.sources, s.querier = c.querier) ↔ c.sources = [] ∨ Querier.Spelled c.info.querier

So a mapping queries its templated parameters in another language than its entries when the name
is written in capitals (`Loader.querier_load`).
-/

namespace Crosswalk

open Text

/-! ## Names of queriers -/

namespace Querier

theorem ofName?_eq_some {s : Text} {q : Querier} : ofName? s = some q ↔ s = q.name := by
  constructor
  · intro h
    have hname : (q.name == s) = true := 
      List.find?_some (p := fun q : Querier => q.name == s) h
    exact (eq_of_beq hname).symm
  · rintro rfl
    cases q <;> decide

theorem lower_trim_name (q : Querier) : lower (trim q.name) = q.name := by cases q <;> decide

/-- A name that both readings take for the same querier: one of another querier than the dotted
one is written as it is. -/
def Spelled (name : Option Text) : Prop :=
  ∀ n ∈ name, ∀ q : Querier, lower (trim n) = q.name → q = .jsdot ∨ n = q.name

end Querier

theorem querierOf_eq (name : Option Text) :
    (querierOf name).1 = (name.bind fun n => Querier.ofName? (lower (trim n))).getD .jsdot := by
  unfold querierOf
  split
  · rfl
  · decide
  · next n _ =>
    dsimp only [Option.bind_some]
    cases Querier.ofName? (lower (trim n)) <;> rfl

/-- **The two readings agree** on exactly the names that are spelled as they are. -/
theorem querierOf_eq_iff (name : Option Text) :
    (querierOf name).1 = (name.bind Querier.ofName?).getD .jsdot ↔ Querier.Spelled name := by
  rw [querierOf_eq]
  cases name with
  | none => exact iff_of_true rfl fun n hn => nomatch hn
  | some n =>
    simp only [Option.bind_some]
    constructor
    · intro h n' hn' q hq
      obtain rfl := Option.some.inj hn'
      rw [Querier.ofName?_eq_some.2 hq, Option.getD_some] at h
      cases hexact : Querier.ofName? n with
      | none =>
        rw [hexact] at h
        exact .inl h
      | some q' =>
        rw [hexact, Option.getD_some] at h
        exact .inr (h ▸ Querier.ofName?_eq_some.1 hexact)
    · intro h
      -- What is a name as it is, is read as that name; else both readings must fall back.
      cases hexact : Querier.ofName? n with
      | some q =>
        have hn : n = q.name := Querier.ofName?_eq_some.1 hexact
        rw [hn, q.lower_trim_name, Querier.ofName?_eq_some.2 rfl]
      | none =>
        cases hread : Querier.ofName? (lower (trim n)) with
        | none => rfl
        | some q =>
          rcases h n rfl q (Querier.ofName?_eq_some.1 hread) with hq | hn
          · rw [hq]
            rfl
          · rw [Querier.ofName?_eq_some.2 hn] at hexact
            cases hexact

theorem Info.querier_named (name : Option Text) (ps : Pairs Text (Option Text)) :
    (Info.named name ps).querier = (Pairs.get? ("querier" : Text) ps).join := by
  obtain ⟨qs, hnamed, hqs⟩ := Info.exists_named name ps
  rw [hnamed]
  exact congrArg Option.join (hqs "querier" (by decide))

/-! ## Sources of a mapping -/

namespace Config

/-- What the entries of all sections read. -/
def sources (c : Config) : List Source := c.entries.filterMap Entry.source?

theorem mem_sources {c : Config} {s : Source} :
    s ∈ c.sources ↔ ∃ x, .rule x ∈ c.entries ∧ x.source = some s := by
  unfold sources
  rw [List.mem_filterMap]
  constructor
  · rintro ⟨e, he, hs⟩
    cases e with
    | rule x => exact ⟨x, he, hs⟩
    | faulty p => cases hs
  · rintro ⟨x, hx, hs⟩
    exact ⟨_, hx, hs⟩

/-- Lines are read by the querier that the lines of `info` name, wherever these stand. -/
theorem querier_ofItems (r : Resolver) (name : Option Text) (items : List Item) :
    ∀ s ∈ (ofItems r name items).sources,
      s.querier = (querierOf (ofItems r name items).info.querier).1 := by
  intro s hs
  obtain ⟨x, hx, hsource⟩ := mem_sources.1 hs
  show s.querier = (querierOf (Info.named name _).querier).1
  rw [Info.querier_named]
  rcases mem_entries.1 hx with hx | hx | ⟨block, hblock, hx⟩
  · exact ((rule_mem_readLines hx).2 s hsource).2
  · exact ((rule_mem_readLines hx).2 s hsource).2
  · obtain ⟨header, -, rfl⟩ := List.mem_map.1 hblock
    exact ((rule_mem_readLines hx).2 s hsource).2

end Config

/-! ## Loading -/

namespace Loader

variable {l : Loader} {p : Page} {bases : Nat}

theorem querier_written [Host] (h : p.isMarkup = false) :
    ∀ s ∈ (l.written p).sources, s.querier = (querierOf (l.written p).info.querier).1 := by
  unfold written
  rw [h]
  split
  · intro s hs
    exact absurd hs List.not_mem_nil
  · exact Config.querier_ofItems l.resolver p.name _

/-- **A mapping in lines without base mapper** can be loaded. Its entries read by the querier whose
name stands in `info`, in any case; that is the querier of the mapping exactly when nothing is read
or the name is spelled as it is. -/
theorem querier_load [Host] (l : Loader) {name fallback : Option Text} {text : Text}
    (hlines : startsWith ['<'] (trim text) = false)
    (hm : mapper? (l.written ⟨name, fallback, text⟩) = none) :
    ∃ c, l.load name fallback text = .ok c ∧
      (∀ s ∈ c.sources, s.querier = (querierOf c.info.querier).1) ∧
      ((∀ s ∈ c.sources, s.querier = c.querier) ↔
        c.sources = [] ∨ Querier.Spelled c.info.querier) := by
  have hload : l.load name fallback text = .ok (l.written ⟨name, fallback, text⟩) :=
    within_eq_ok.2 (.single (alone_plain (p := ⟨name, fallback, text⟩) hlines) hm)
  have hread := querier_written (l := l) (p := ⟨name, fallback, text⟩) hlines
  refine ⟨_, hload, hread, ?_⟩
  generalize l.written ⟨name, fallback, text⟩ = c at hread
  rw [← querierOf_eq_iff]
  constructor
  · intro h
    cases hsources : c.sources with
    | nil => exact .inl rfl
    | cons s rest =>
      have hs : s ∈ c.sources := hsources ▸ List.mem_cons_self
      exact .inr ((hread s hs).symm.trans (h s hs))
  · rintro (hnil | hsame) s hs
    · exact absurd (hnil ▸ hs) List.not_mem_nil
    · exact (hread s hs).trans hsame

/-- A loader without vocabularies and mappings. -/
def bareLoader : Loader := ⟨⟨⟨[], [], [], []⟩, false, []⟩, ⟨[], [], [], []⟩, 0⟩

/-- Entries before the name of their querier. -/
def pathsBefore (name : Text) : Text :=
  "[mapping]\n/a = dcterms:title\n[a:b]\n/b = dcterms:title\n[info]\nquerier = " ++ name

theorem querier_load_quoted :
    ∃ c, bareLoader.load none none (pathsBefore "' xpath '") = .ok c ∧ c.sources.length = 2 ∧
      ∀ s ∈ c.sources, s.querier = c.querier := by
  have hlines : startsWith ['<'] (trim (pathsBefore "' xpath '")) = false := by decide +kernel
  have hm : mapper? (bareLoader.written ⟨none, none, pathsBefore "' xpath '"⟩) = none := by
    decide +kernel
  obtain ⟨c, hc, -, hiff⟩ := bareLoader.querier_load hlines hm
  have hparts : (bareLoader.load none none (pathsBefore "' xpath '")).map
      (fun c => (c.sources.length, c.info.querier)) = .ok (2, some "xpath") := by decide +kernel
  rw [hc] at hparts
  obtain ⟨hlength, hquerier⟩ := Prod.mk.inj (Except.ok.inj hparts)
  refine ⟨c, hc, hlength, hiff.2 (.inr ?_)⟩
  intro n hn q hq
  rw [hquerier] at hn
  obtain rfl := Option.some.inj hn
  exact .inr hq

/-- In capitals, the name of a querier is read by the entries alone. -/
theorem querier_load_capitals :
    ∃ c, bareLoader.load none none (pathsBefore "XPath") = .ok c ∧
      c.sources.map Source.querier = [.xpath, .xpath] ∧ c.querier = .jsdot := by
  obtain ⟨c, hc, hparts⟩ := map_eq_ok.1 (by decide +kernel :
    (bareLoader.load none none (pathsBefore "XPath")).map
      (fun c => (c.sources.map Source.querier, c.querier)) = .ok ([.xpath, .xpath], .jsdot))
  exact ⟨c, hc, (Prod.mk.inj hparts).1, (Prod.mk.inj hparts).2⟩

end Loader
end Crosswalk
