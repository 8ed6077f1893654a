import Crosswalk.Host.Bundled
import Crosswalk.Proofs.Cache
import Crosswalk.Proofs.Mapping.Include
import Crosswalk.Proofs.Mapping.Key
import Crosswalk.Proofs.Outcome
import Crosswalk.Proofs.Pairs

/-!
# Calls through a cache

A processor that keeps mappings answers every call as one that builds them all
(`answers_transparent`), whatever the capacity, and a call that fails leaves it as it was.

What carries the proof is that a mapping that is kept is the one of every page with its key
(`Kept`), as no two pages of the calls have one key.
-/

namespace Crosswalk

open Text Loader

namespace Processor

/-! ## Calls -/

/-- What a processor is asked for. -/
inductive Call where
  | parse (text : Text) (name fallback : Option Text)
  | load (reference : Text)

/-- The mapping that a call gives, and the processor after it. -/
def reply [Host] (p : Processor) : Call → Except LoadFault (Loaded × Processor)
  | .parse text name fallback => (p.parse name fallback text).mapError .excess
  | .load reference => p.load reference

/-- The page that a call leads to. -/
def pageOf (store : Store) : Call → Except LoadFault Page
  | .parse text name fallback => .ok ⟨name, fallback, text⟩
  | .load reference =>
    match store.read reference none with
    | none => .error (.notFound reference)
    | some content => .ok ⟨some reference, store.shortName? reference, content⟩

/-- The mapping of a page, looked up first, built when it is not there, then kept. The processor
is the one after these steps also when building fails. -/
def serve [Host] (p : Processor) (q : Page) : Except Excess Loaded × Processor :=
  match p.cache with
  | none =>
    match p.build q.name q.fallback q.text with
    | .error e => (.error e, p)
    | .ok built => (.ok built.1, built.2)
  | some cache =>
    match cache.get (p.keyOf q) with
    | (some loaded, used) => (.ok loaded, { p with cache := some used })
    | (none, used) =>
      match p.build q.name q.fallback q.text with
      | .error e => (.error e, { p with cache := some used })
      | .ok built =>
        (.ok built.1, { built.2 with cache := some (used.set (p.keyOf q) built.1) })

/-- The answer to a call, and the processor after it. -/
def answer [Host] (p : Processor) (call : Call) : Except LoadFault Loaded × Processor :=
  match pageOf p.loader.store call with
  | .error e => (.error e, p)
  | .ok q => ((p.serve q).1.mapError .excess, (p.serve q).2)

/-- The answers to calls, one after another. -/
def answers [Host] (p : Processor) : List Call → List (Except LoadFault Loaded)
  | [] => []
  | call :: calls => (p.answer call).1 :: (p.answer call).2.answers calls

variable {p : Processor} {q : Page} {call : Call}

/-! ## What a call can do -/

/-- What can come of a page: a kept mapping moves to the end, a new one is kept if there is a
cache, and a failure changes nothing. -/
inductive Served [Host] (p : Processor) (q : Page) : Except Excess Loaded × Processor → Prop
  | found {cache : Cache Loaded} {loaded : Loaded} (hcache : p.cache = some cache)
      (hget : (cache.get (p.keyOf q)).1 = some loaded) :
      Served p q (.ok loaded, { p with cache := some (cache.get (p.keyOf q)).2 })
  | failed {e : Excess} (hload : p.loader.load q.name q.fallback q.text = .error e) :
      Served p q (.error e, p)
  | built {c : Config} (hcache : p.cache = none)
      (hload : p.loader.load q.name q.fallback q.text = .ok c) :
      Served p q (.ok ⟨p.next, c⟩, { p with next := p.next + 1 })
  | kept {cache : Cache Loaded} {c : Config} (hcache : p.cache = some cache)
      (hload : p.loader.load q.name q.fallback q.text = .ok c) :
      Served p q (.ok ⟨p.next, c⟩,
        { p with next := p.next + 1, cache := some (cache.set (p.keyOf q) ⟨p.next, c⟩) })

theorem serve_cases [Host] (p : Processor) (q : Page) : Served p q (p.serve q) := by
  unfold serve build
  cases hcache : p.cache with
  | none =>
    cases hload : p.loader.load q.name q.fallback q.text with
    | error e => exact .failed hload
    | ok c => exact .built hcache hload
  | some cache =>
    dsimp only
    rcases hget : cache.get (p.keyOf q) with ⟨found, used⟩
    cases found with
    | some loaded =>
      obtain rfl : (cache.get (p.keyOf q)).2 = used := by rw [hget]
      exact .found hcache (by rw [hget])
    | none =>
      obtain rfl : used = cache := by
        have hsame := Cache.get_of_none (c := cache) (k := p.keyOf q)
        rw [hget] at hsame
        exact hsame rfl
      cases hload : p.loader.load q.name q.fallback q.text with
      | error e =>
        have hp : { p with cache := some used } = p := by rw [← hcache]
        exact hp ▸ .failed hload
      | ok c => exact .kept hcache hload

theorem parse_eq [Host] (p : Processor) (q : Page) : p.parse q.name q.fallback q.text =
    (p.serve q).1.map fun loaded => (loaded, (p.serve q).2) := by
  unfold parse serve
  cases p.cache with
  | none => cases p.build q.name q.fallback q.text <;> rfl
  | some cache =>
    have hkey : Cache.key q.text (p.options q.name q.fallback) = p.keyOf q := rfl
    dsimp only
    rw [hkey]
    rcases hget : cache.get (p.keyOf q) with ⟨found, used⟩
    cases found with
    | some loaded => rfl
    | none =>
      have hused : used = cache := by
        have hsame := Cache.get_of_none (c := cache) (k := p.keyOf q)
        rw [hget] at hsame
        exact hsame rfl
      cases p.build q.name q.fallback q.text with
      | error e => rfl
      | ok built => rw [hused]; rfl

theorem reply_eq [Host] (p : Processor) (call : Call) :
    p.reply call = (p.answer call).1.map fun loaded => (loaded, (p.answer call).2) := by
  cases call with
  | parse text name fallback =>
    have hparse := parse_eq p ⟨name, fallback, text⟩
    exact (congrArg (Except.mapError LoadFault.excess) hparse).trans (map_mapError _ _ _)
  | load reference =>
    unfold reply load answer pageOf
    dsimp only
    cases p.loader.store.read reference none with
    | none => rfl
    | some content =>
      have hparse := parse_eq p ⟨some reference, p.loader.store.shortName? reference, content⟩
      exact (congrArg (Except.mapError LoadFault.excess) hparse).trans (map_mapError _ _ _)

theorem serve_of_error [Host] {e : Excess} (h : (p.serve q).1 = .error e) : (p.serve q).2 = p := by
  have hserved := serve_cases p q
  generalize p.serve q = r at h hserved ⊢
  cases hserved with
  | failed => rfl
  | found => cases h
  | built => cases h
  | kept => cases h

theorem answer_of_error [Host] {e : LoadFault} (h : (p.answer call).1 = .error e) :
    (p.answer call).2 = p := by
  unfold answer at h ⊢
  cases hpage : pageOf p.loader.store call with
  | error e => rfl
  | ok q =>
    rw [hpage] at h
    cases hserve : (p.serve q).1 with
    | error e => exact serve_of_error hserve
    | ok loaded =>
      simp only [hserve] at h
      cases h

/-! ## What is kept -/

/-- Every mapping that is kept is the one of a page, under the key of the page. -/
structure Kept [Host] (l : Loader) (pages : List Page) (p : Processor) : Prop where
  loader : p.loader = l
  entries : ∀ cache, p.cache = some cache → ∀ e ∈ cache.entries,
    ∃ q ∈ pages, e.1 = p.keyOf q ∧ l.load q.name q.fallback q.text = .ok e.2.config

/-- No two pages have one digest. -/
def Distinguished (p : Processor) (pages : List Page) : Prop :=
  ∀ q ∈ pages, ∀ q' ∈ pages, sha256 (p.keyOctets q) = sha256 (p.keyOctets q') →
    p.keyOctets q = p.keyOctets q'

variable {l : Loader} {pages : List Page}

theorem Distinguished.eq_of_keyOf (h : Distinguished p pages) (hq : q ∈ pages) {q' : Page}
    (hq' : q' ∈ pages) (hkey : p.keyOf q = p.keyOf q') : q = q' := by
  rw [keyOf_eq, keyOf_eq] at hkey
  exact keyOctets_injective p (h q hq q' hq' (hexOctets_injective hkey))

theorem kept_ofLoader [Host] (l : Loader) (capacity : Option Nat) (pages : List Page) :
    Kept l pages (ofLoader l capacity) where
  loader := rfl
  entries := by
    intro cache hcache e he
    obtain ⟨n, -, rfl⟩ := Option.map_eq_some_iff.1 hcache
    cases he

/-- A page gets its own mapping, kept or not, and what is kept stays right. -/
theorem Kept.serve [Host] (h : Kept l pages p) (hd : Distinguished p pages) (hq : q ∈ pages) :
    (p.serve q).1.map Loaded.config = l.load q.name q.fallback q.text ∧
      Kept l pages (p.serve q).2 := by
  obtain rfl := h.loader
  have hserved := serve_cases p q
  generalize p.serve q = r at hserved ⊢
  cases hserved with
  | found hcache hget =>
    obtain ⟨q', hq', hkey, hload⟩ := h.entries _ hcache _ (Cache.mem_of_get hget)
    obtain rfl := hd.eq_of_keyOf hq hq' hkey
    refine ⟨hload.symm, rfl, fun cache hused e he => h.entries _ hcache e ?_⟩
    exact Cache.mem_get (Option.some.inj hused ▸ he)
  | failed hload => exact ⟨hload.symm, h⟩
  | built hcache hload =>
    refine ⟨hload.symm, rfl, fun cache hnew => ?_⟩
    exact absurd (hcache.symm.trans hnew) nofun
  | kept hcache hload =>
    refine ⟨hload.symm, rfl, fun cache hnew e he => ?_⟩
    rcases Cache.mem_set (Option.some.inj hnew ▸ he) with rfl | ⟨he, -⟩
    · exact ⟨q, hq, rfl, hload⟩
    · exact h.entries _ hcache e he

/-! ## Calls one after another -/

/-- What a call gives when the mapping is built for it alone. -/
def fresh [Host] (l : Loader) (call : Call) : Except LoadFault Config :=
  match pageOf l.store call with
  | .error e => .error e
  | .ok q => (l.load q.name q.fallback q.text).mapError .excess

theorem reply_uncached [Host] (l : Loader) (call : Call) :
    ((ofLoader l none).reply call).map (fun r => r.1.config) = fresh l call := by
  cases call with
  | parse text name fallback =>
    have hparse : (ofLoader l none).parse name fallback text =
        (l.load name fallback text).map (ofLoader l none).take := rfl
    unfold reply fresh pageOf
    dsimp only
    rw [hparse]
    cases l.load name fallback text <;> rfl
  | load reference =>
    have hparse : ∀ content, (ofLoader l none).parse (some reference)
        (l.store.shortName? reference) content =
          (l.load (some reference) (l.store.shortName? reference) content).map
            (ofLoader l none).take := fun _ => rfl
    unfold reply load fresh pageOf
    dsimp only [ofLoader]
    cases l.store.read reference none with
    | none => rfl
    | some content =>
      dsimp only
      rw [← ofLoader.eq_def, hparse]
      cases l.load (some reference) (l.store.shortName? reference) content <;> rfl

/-- The pages that calls lead to. -/
def pagesOf (store : Store) (calls : List Call) : List Page :=
  calls.filterMap fun call => (pageOf store call).toOption

theorem Kept.answer [Host] (h : Kept l pages p) (hd : Distinguished p pages)
    (hcall : ∀ q, pageOf l.store call = .ok q → q ∈ pages) :
    (p.answer call).1.map Loaded.config = fresh l call ∧ Kept l pages (p.answer call).2 := by
  have hloader := h.loader
  unfold Processor.answer fresh
  rw [hloader]
  cases hpage : pageOf l.store call with
  | error e => exact ⟨rfl, h⟩
  | ok q =>
    obtain ⟨hconfig, hkept⟩ := h.serve hd (hcall q hpage)
    refine ⟨?_, hkept⟩
    dsimp only
    rw [← hconfig]
    exact (map_mapError _ _ _).symm

theorem Distinguished.congr {p' : Processor} (h : Distinguished p pages)
    (hloader : p'.loader = p.loader) : Distinguished p' pages := by
  have hoctets : p'.keyOctets = p.keyOctets := by
    funext q
    simp only [keyOctets, keyText, options, hloader]
  unfold Distinguished
  rw [hoctets]
  exact h

theorem Kept.answers [Host] (h : Kept l pages p) (hd : Distinguished p pages) {calls : List Call}
    (hcalls : pagesOf l.store calls ⊆ pages) :
    (p.answers calls).map (fun r => r.map Loaded.config) = calls.map (fresh l) := by
  induction calls generalizing p with
  | nil => rfl
  | cons call calls ih =>
    have hcall : ∀ q, pageOf l.store call = .ok q → q ∈ pages := fun q hq =>
      hcalls (List.mem_filterMap.2 ⟨call, List.mem_cons_self, by rw [hq]; rfl⟩)
    have htail : pagesOf l.store calls ⊆ pages := fun q hq => by
      obtain ⟨call', hmem, hq⟩ := List.mem_filterMap.1 hq
      exact hcalls (List.mem_filterMap.2 ⟨call', List.mem_cons_of_mem _ hmem, hq⟩)
    obtain ⟨hconfig, hkept⟩ := h.answer hd hcall
    have hloader := hkept.loader.trans h.loader.symm
    rw [Processor.answers, List.map_cons, List.map_cons, hconfig, ih hkept (hd.congr hloader) htail]

/-- **The cache** cannot be seen: with any capacity every call gives what it gives without a
cache, and a call that fails leaves the processor as it was. -/
theorem answers_transparent [Host] (l : Loader) (capacity : Nat) (calls : List Call)
    (hd : Distinguished (ofLoader l none) (pagesOf l.store calls)) :
    ((ofLoader l (some capacity)).answers calls).map (fun r => r.map Loaded.config) =
        calls.map (fun call => ((ofLoader l none).reply call).map fun r => r.1.config) ∧
      ∀ (p : Processor) (call : Call),
        p.reply call = (p.answer call).1.map (fun loaded => (loaded, (p.answer call).2)) ∧
        ∀ e, (p.answer call).1 = .error e → (p.answer call).2 = p := by
  refine ⟨?_, fun p call => ⟨reply_eq p call, fun e => answer_of_error⟩⟩
  have hd' : Distinguished (ofLoader l (some capacity)) (pagesOf l.store calls) := hd.congr rfl
  rw [(kept_ofLoader l (some capacity) _).answers hd' (List.Subset.refl _)]
  exact List.map_congr_left fun call _ => (reply_uncached l call).symm

instance (p : Processor) (pages : List Page) : Decidable (Distinguished p pages) :=
  inferInstanceAs (Decidable (∀ q ∈ pages, ∀ q' ∈ pages,
    sha256 (p.keyOctets q) = sha256 (p.keyOctets q') → p.keyOctets q = p.keyOctets q'))

/-- One mapping that includes itself and one that does not. -/
def twoStored : Loader := ofRegistered [("a", including), ("b", "[info]\nlabel = B")] 20

/-- Two mappings in turn, between them a failure and a reference to nothing. -/
def turns : List Call := [
  .parse "[info]\nlabel = A" none none, .load "mapping:b", .load "mapping:b", .load "mapping:a",
  .parse "[info]\nlabel = A" none none, .parse "" (some "c\"") (some "\x7b"), .load "mapping:c",
  .load "mapping:b"]

theorem answers_transparent_turns :
    Distinguished (ofLoader twoStored none) (pagesOf twoStored.store turns) ∧
      ((ofLoader twoStored (some 1)).answers turns).map (fun r => r.map Loaded.config) =
        turns.map (fun call => ((ofLoader twoStored none).reply call).map fun r => r.1.config) := by
  have hd : Distinguished (ofLoader twoStored none) (pagesOf twoStored.store turns) := by
    decide +kernel
  exact ⟨hd, (answers_transparent twoStored 1 turns hd).1⟩

end Processor
end Crosswalk
