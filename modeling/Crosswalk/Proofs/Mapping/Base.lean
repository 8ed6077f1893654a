import Crosswalk.Host.Bundled
import Crosswalk.Mapping.Processor
import Crosswalk.Proofs.Mapping.Built
import Crosswalk.Proofs.Text.Blank

/-!
# Base mappers

The entries of a mapping over its base mapper are the ones that the base mapper gives when it is
loaded by its own reference, then those of the mapping itself (`load_over_base`).

This takes that the texts of the base mapper read the same includes from both sides
(`Include.AgreeOn`): over a base mapper they are read in the directory `base`, unless its reference
names one, while a reference that names no directory is loaded with the includes of the default
directory.
-/

namespace Crosswalk

open Text Relation

/-! ## Includes in two directories -/

namespace Include

variable {store : Store} {f g : Option Text} {s t : Text}

/-- The text includes the other one by a reference without a directory of its own. -/
def Inherits (store : Store) (f : Option Text) (s t : Text) : Prop :=
  ∃ reference ∈ readings form s,
    store.fallback? reference = none ∧ store.read reference f = some t

/-- The text, and all that it includes, reads the same contents from both directories. -/
def AgreeOn (store : Store) (f g : Option Text) (s : Text) : Prop :=
  ∀ t, ReflTransGen (Inherits store f) s t →
    ∀ reference ∈ readings form t, store.read reference f = store.read reference g

theorem AgreeOn.inherits (h : AgreeOn store f g s) (hst : Inherits store f s t) :
    AgreeOn store f g t :=
  fun u htu => h u (.head hst htu)

theorem found_agree {room : Nat} {reference : Text}
    (hread : store.read reference f = store.read reference g)
    (hin : ∀ content, store.fallback? reference = none → store.read reference f = some content →
      expand room store f content = expand room store g content) :
    found room store f reference = found room store g reference := by
  unfold found target?
  by_cases hnil : reference = []
  · rw [if_pos hnil, if_pos hnil]
  · rw [if_neg hnil, if_neg hnil, ← hread]
    cases hcontent : store.read reference f with
    | none => rfl
    | some content =>
      cases hown : store.fallback? reference with
      | some name => rfl
      | none =>
        simp only [Option.map_some, Option.none_or]
        rw [hin content hown hcontent]

theorem expand_agree (h : AgreeOn store f g s) (room : Nat) :
    expand room store f s = expand room store g s := by
  induction room generalizing s with
  | zero => rw [expand_zero, expand_zero]
  | succ room ih =>
    have hpieces : ∀ p ∈ pieces form s, expandPiece (found room store f) p =
        expandPiece (found room store g) p := by
      intro p hp
      cases p with
      | char c => rfl
      | found reference t =>
        have hmem : reference ∈ readings form s := mem_readings.2 ⟨t, hp⟩
        exact found_agree (h s .refl reference hmem) fun content hown hcontent =>
          ih (h.inherits ⟨reference, hmem, hown, hcontent⟩)
    rw [expand_succ, expand_succ, mapM_congr hpieces]

/-- Two names of one directory read the same. -/
theorem read_congr (h : Pairs.get? (store.fallbackName f) store.directories =
    Pairs.get? (store.fallbackName g) store.directories) (reference : Text) :
    store.read reference f = store.read reference g := by
  simp only [Store.read, Store.path?, h]

theorem agreeOn_of_directory (h : Pairs.get? (store.fallbackName f) store.directories =
    Pairs.get? (store.fallbackName g) store.directories) (s : Text) : AgreeOn store f g s :=
  fun _ _ reference _ => read_congr h reference

end Include

/-! ## Mappings under another name -/

/-- Mappings that differ in nothing that makes entries. -/
structure Likewise (c d : Config) : Prop where
  mapper : c.info.mapper = d.info.mapper
  default : c.default = d.default
  mapping : c.mapping = d.mapping

theorem likewise_ofLines (r : Resolver) (name name' : Option Text) (s : Text) :
    Likewise (.ofLines r name s) (.ofLines r name' s) where
  mapper := (Info.mapper_named name _).trans (Info.mapper_named name' _).symm
  default := rfl
  mapping := rfl

theorem likewise_ofXml [Host] (r : Resolver) (name name' : Option Text) (s : Text) :
    Likewise (.ofXml r name s) (.ofXml r name' s) := by
  unfold Config.ofXml
  split
  · exact ⟨(Info.mapper_named name _).trans (Info.mapper_named name' _).symm, rfl, rfl⟩
  · exact ⟨(Info.mapper_named name []).trans (Info.mapper_named name' []).symm, rfl, rfl⟩

namespace Loader

variable {l : Loader} {p q : Page} {bases : Nat} {c : Config} {m content : Text}

theorem alone_moved [Host] (htext : q.text = p.text)
    (hagree : Include.AgreeOn l.store p.fallback q.fallback (trim p.text))
    (h : l.alone bases p = .ok c) : ∃ d, l.alone bases q = .ok d ∧ Likewise c d := by
  have hmarkup : q.isMarkup = p.isMarkup := by rw [Page.isMarkup, htext, Page.isMarkup]
  cases hp : p.isMarkup with
  | true =>
    rw [alone_markup hp] at h
    have hsame : Include.expand (l.includeRoom bases) l.store q.source.fallback q.source.text =
        Include.expand (l.includeRoom bases) l.store p.source.fallback p.source.text := by
      rw [Page.source, htext]
      exact (Include.expand_agree hagree _).symm
    obtain ⟨s, hs, rfl⟩ := map_eq_ok.1 h
    rw [alone_markup (hmarkup.trans hp), hsame, hs]
    exact ⟨_, rfl, likewise_ofXml l.resolver p.name q.name s⟩
  | false =>
    rw [alone_plain hp] at h
    refine ⟨_, alone_plain (hmarkup.trans hp), Except.ok.inj h ▸ ?_⟩
    simp only [written, hmarkup, hp, htext]
    split
    · exact ⟨rfl, rfl, rfl⟩
    · exact likewise_ofLines l.resolver p.name q.name _

/-- What a text gives does not depend on its name, and on its directory only by the includes. -/
theorem Built.moved [Host] (htext : q.text = p.text)
    (hagree : Include.AgreeOn l.store p.fallback q.fallback (trim p.text))
    (h : Built l bases p c) :
    ∃ d, Built l bases q d ∧ d.default = c.default ∧ d.mapping = c.mapping := by
  have hmapper : ∀ {c d : Config}, Likewise c d → mapper? d = mapper? c := fun hcd => by
    rw [mapper?, ← hcd.mapper, mapper?]
  cases h with
  | single hown hm =>
    obtain ⟨d, hd, hcd⟩ := alone_moved htext hagree hown
    exact ⟨d, .single hd ((hmapper hcd).trans hm), hcd.default.symm, hcd.mapping.symm⟩
  | missing hown hm hb =>
    obtain ⟨d, hd, hcd⟩ := alone_moved htext hagree hown
    exact ⟨_, .missing hd ((hmapper hcd).trans hm) hb, hcd.default.symm, hcd.mapping.symm⟩
  | composed hown hm hb hbase =>
    obtain ⟨d, hd, hcd⟩ := alone_moved htext hagree hown
    refine ⟨_, .composed hd ((hmapper hcd).trans hm) hb hbase, ?_, ?_⟩
    · simp only [Config.compose, hcd.default]
    · simp only [Config.compose, hcd.mapping]

/-! ## The reference of a base mapper -/

theorem trim_read {store : Store} {reference t : Text} {f : Option Text}
    (h : store.read reference f = some t) : trim t = t := by
  have hnonBlank : ∀ {o : Option Text}, o.bind Store.nonBlank? = some t → trim t = t := by
    intro o ho
    obtain ⟨u, -, hu⟩ := Option.bind_eq_some_iff.1 ho
    unfold Store.nonBlank? at hu
    dsimp only at hu
    split at hu
    · cases hu
    · exact Option.some.inj hu ▸ (trimmed_trimOf isBlank u).trimOf_eq
  unfold Store.read at h
  dsimp only at h
  split at h
  · cases h
  · split at h
    · exact hnonBlank h
    · exact hnonBlank h

/-- The reference of a base mapper: in the directory of bases when it is there, else as written. -/
def baseReference (l : Loader) (m : Text) : Text :=
  if (l.store.read ("base:" ++ m) none).isSome then "base:" ++ m else m

theorem read_baseReference (l : Loader) (m : Text) :
    l.store.read (l.baseReference m) none = l.base? m := by
  unfold baseReference base?
  cases h : l.store.read ("base:" ++ m) none with
  | none => rfl
  | some content => exact h

theorem trim_base (hb : l.base? m = some content) : trim content = content :=
  trim_read ((read_baseReference l m).trans hb)

/-- A mapping over its base mapper, which comes about with less room. -/
theorem Built.base [Host] {own : Config} (h : Built l bases p c) (hown : l.alone bases p = .ok own)
    (hm : mapper? own = some m) (hb : l.base? m = some content) :
    ∃ n base, n < bases ∧ Built l n (l.basePage m content) base ∧ c = base.compose own := by
  cases h with
  | single hown' hm' =>
    obtain rfl := alone_unique hown hown'
    rw [hm] at hm'
    cases hm'
  | missing hown' hm' hb' =>
    obtain rfl := alone_unique hown hown'
    obtain rfl := Option.some.inj (hm.symm.trans hm')
    rw [hb] at hb'
    cases hb'
  | composed hown' hm' hb' hbase =>
    obtain rfl := alone_unique hown hown'
    obtain rfl := Option.some.inj (hm.symm.trans hm')
    obtain rfl := Option.some.inj (hb.symm.trans hb')
    exact ⟨_, _, Nat.lt_succ_self _, hbase, rfl⟩

theorem fallbackName_baseFallback (l : Loader) (m : Text) :
    l.store.fallbackName (some (l.baseFallback m)) = l.baseFallback m := by
  unfold baseFallback
  cases h : l.store.fallback? m with
  | none => rfl
  | some name =>
    have hname : (name != []) = true := (Option.filter_eq_some_iff.1 h).2
    cases name with
    | nil => cases hname
    | cons c name => rfl

theorem Processor.load_eq_ok [Host] {l : Loader} {reference content : Text} {d : Config}
    (hread : l.store.read reference none = some content)
    (hload : l.load (some reference) (l.store.shortName? reference) content = .ok d) :
    (Processor.ofLoader l none).load reference =
      .ok (⟨0, d⟩, { Processor.ofLoader l none with next := 1 }) := by
  simp only [Processor.load, Processor.ofLoader, hread, Processor.parse, Option.map_none,
    Processor.build, hload]
  rfl

/-- A base mapper that is found in the directory of bases, by a reference that names no other one,
reads its includes there in any case. -/
theorem directory_base (hbase : l.store.directories.has ("base" : Text) = true)
    (hread : (l.store.read ("base:" ++ m) none).isSome = true)
    (hm : l.store.fallback? m = none) :
    l.baseFallback m = l.store.fallbackName (l.store.shortName? (l.baseReference m)) := by
  have hreference : l.baseReference m = "base:" ++ m := if_pos hread
  have hname : l.store.shortName? ("base:" ++ m) = some "base" := by
    have hcut : cutChar? ':' ("base:" ++ m) = some (("base" : Text), m) := rfl
    rw [Store.shortName?, hcut]
    exact if_pos hbase
  rw [hreference, hname, baseFallback, hm]
  rfl

/-- **A base mapper** gives the entries that come first. They are the ones of its own reference
when its text reads the same includes there, in particular when the includes are read in one
directory. -/
theorem load_over_base [Host] {name fallback : Option Text} {text : Text} {own : Config}
    (hload : l.load name fallback text = .ok c)
    (hown : l.loadAlone l.maxDepth.toNat name fallback text = .ok own)
    (hm : mapper? own = some m) (hb : l.base? m = some content) :
    (∃ base, l.load (some m) (some (l.baseFallback m)) content = .ok base ∧
      c.default = distinctOn Entry.parts (base.default ++ own.default) ∧
      c.mapping = distinctOn Entry.parts (base.mapping ++ own.mapping)) ∧
    (Include.AgreeOn l.store (some (l.baseFallback m))
        (l.store.shortName? (l.baseReference m)) content →
      ∃ loaded p, (Processor.ofLoader l none).load (l.baseReference m) = .ok (loaded, p) ∧
        c.default = distinctOn Entry.parts (loaded.config.default ++ own.default) ∧
        c.mapping = distinctOn Entry.parts (loaded.config.mapping ++ own.mapping)) ∧
    (Pairs.get? (l.baseFallback m) l.store.directories =
        Pairs.get? (l.store.fallbackName (l.store.shortName? (l.baseReference m)))
          l.store.directories →
      Include.AgreeOn l.store (some (l.baseFallback m))
        (l.store.shortName? (l.baseReference m)) content) := by
  have hbuilt := within_eq_ok (p := ⟨name, fallback, text⟩).1 hload
  obtain ⟨n, base, hn, hbase, rfl⟩ := hbuilt.base hown hm hb
  -- The base mapper has less room below it than a mapping that is loaded by itself.
  have hroom : Built l l.maxDepth.toNat (l.basePage m content) base := hbase.of_le hn.le
  refine ⟨⟨base, within_eq_ok.2 hroom, distinctOn_written _, distinctOn_written _⟩,
    fun hagree => ?_, fun hsame => ?_⟩
  · let q : Page := ⟨some (l.baseReference m), l.store.shortName? (l.baseReference m), content⟩
    have hpage : Include.AgreeOn l.store (l.basePage m content).fallback q.fallback
        (trim (l.basePage m content).text) := by
      rw [basePage, trim_base hb]
      exact hagree
    have htext : q.text = (l.basePage m content).text := rfl
    obtain ⟨d, hd, hdefault, hmapping⟩ := hroom.moved htext hpage
    have hread := (read_baseReference l m).trans hb
    refine ⟨_, _, Processor.load_eq_ok hread (within_eq_ok.2 hd), ?_, ?_⟩
    · simp only [Config.compose, distinctOn_written, hdefault]
    · simp only [Config.compose, distinctOn_written, hmapping]
  · refine Include.agreeOn_of_directory ?_ content
    rw [fallbackName_baseFallback, hsame]

/-- A mapping that includes a part. -/
def bookText : Text := "<mapping><include mapping=\"part.xml\"/></mapping>"

def partText : Text :=
  "<mapping><map><from jsdot=\"title\"/><to field=\"dcterms:title\"/></map></mapping>"

/-- A mapping over the one that includes a part. -/
def overBook : Text := "[info]\nmapper = book.xml\n[mapping]\nid = dcterms:identifier"

/-- The files of a directory that has these names. -/
def bookShelf (names : List Text) : Loader where
  resolver := ⟨⟨[], [], [], []⟩, false, []⟩
  store := ⟨names.map fun name => (name, Path.ofText "maps"), "user", [],
    Files.ofList [("maps/book.xml", bookText), ("maps/part.xml", partText)]⟩
  maxDepth := 20

theorem load_over_base_book :
    ∃ c own loaded p, (bookShelf ["user", "base"]).load none none overBook = .ok c ∧
      (bookShelf ["user", "base"]).loadAlone 20 none none overBook = .ok own ∧
      mapper? own = some "book.xml" ∧
      (bookShelf ["user", "base"]).base? "book.xml" = some bookText ∧
      (Processor.ofLoader (bookShelf ["user", "base"]) none).load "base:book.xml" =
        .ok (loaded, p) ∧
      c.mapping = distinctOn Entry.parts (loaded.config.mapping ++ own.mapping) ∧
      c.mapping.length = 2 := by
  obtain ⟨c, hc, hlength⟩ := map_eq_ok.1 (by decide +kernel :
    ((bookShelf ["user", "base"]).load none none overBook).map (fun c => c.mapping.length) =
      .ok 2)
  obtain ⟨own, hown, hm⟩ := map_eq_ok.1 (by decide +kernel :
    ((bookShelf ["user", "base"]).loadAlone 20 none none overBook).map mapper? =
      .ok (some "book.xml"))
  have hb : (bookShelf ["user", "base"]).base? "book.xml" = some bookText := by decide +kernel
  have hreference : (bookShelf ["user", "base"]).baseReference "book.xml" = "base:book.xml" := by
    decide +kernel
  have hover := load_over_base hc hown hm hb
  have hdirectory := directory_base (l := bookShelf ["user", "base"]) (m := "book.xml")
    (by decide) (by decide +kernel) (by decide +kernel)
  have hagree := hover.2.2 (by rw [hdirectory])
  rw [hreference] at hover hagree
  obtain ⟨loaded, p, hloaded, -, hmapping⟩ := hover.2.1 hagree
  exact ⟨c, own, loaded, p, hc, hown, hm, hb, hloaded, hmapping, hlength⟩

/-- Where no directory has the name `base`, a base mapper loses what it includes from the default
directory. -/
theorem base_without_part :
    ∃ c own loaded p, (bookShelf ["user"]).load none none overBook = .ok c ∧
      (bookShelf ["user"]).loadAlone 20 none none overBook = .ok own ∧
      mapper? own = some "book.xml" ∧
      (bookShelf ["user"]).baseReference "book.xml" = "book.xml" ∧
      (Processor.ofLoader (bookShelf ["user"]) none).load "book.xml" = .ok (loaded, p) ∧
      c.mapping ≠ distinctOn Entry.parts (loaded.config.mapping ++ own.mapping) := by
  obtain ⟨c, hc, hfirst⟩ := map_eq_ok.1 (by decide +kernel :
    ((bookShelf ["user"]).load none none overBook).map
      (fun c => c.mapping.head?.map (Entry.reads "title")) = .ok (some false))
  obtain ⟨own, hown, hm⟩ := map_eq_ok.1 (by decide +kernel :
    ((bookShelf ["user"]).loadAlone 20 none none overBook).map mapper? = .ok (some "book.xml"))
  obtain ⟨⟨loaded, p⟩, hloaded, hloadedFirst⟩ := map_eq_ok.1 (by decide +kernel :
    ((Processor.ofLoader (bookShelf ["user"]) none).load "book.xml").map
      (fun r => r.1.config.mapping.head?.map (Entry.reads "title")) = .ok (some true))
  refine ⟨c, own, loaded, p, hc, hown, hm, by decide +kernel, hloaded, fun h => ?_⟩
  rw [h] at hfirst
  cases hmapping : loaded.config.mapping with
  | nil => simp [hmapping] at hloadedFirst
  | cons e es =>
    simp only [hmapping, List.head?_cons, Option.map_some] at hloadedFirst
    simp only [hmapping, List.cons_append, distinctOn, List.head?_cons, Option.map_some] at hfirst
    exact absurd (hfirst.symm.trans hloadedFirst) (by decide)

end Loader
end Crosswalk
