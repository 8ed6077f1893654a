import Crosswalk.Host.Bundled
import Crosswalk.Proofs.Mapping.Querier
import Crosswalk.Proofs.Record.Entries

/-!
# Empty texts in a record

A template never writes an empty text, and what a source gives is written without the empty ones.
Only a fixed text is written as it is:

    c.convert vars document = .ok record →
      ([] ∈ the texts of f in record ↔ some entry for f has the fixed text [])  (nil_mem_convert_iff)

A pattern has the fixed text `[]` when it is a pair of quotes with nothing but blanks between
(`Template.raw_compile_eq_nil_iff`).
-/

namespace Crosswalk

open Text

/-! ## Texts of modifiers -/

namespace Template

theorem raw_compile_eq_nil_iff (pattern : Text) : (compile pattern).raw = some [] ↔
    isQuoted (trim pattern) = true ∧ trim (unquote (trim pattern)) = [] := by
  unfold compile
  dsimp only
  split
  · next hnil => simp [hnil, Modifier.empty, isQuoted]
  · split
    · next hquoted => simp [Modifier.ofRaw, hquoted]
    · next hquoted =>
      refine iff_of_false ?_ fun h => hquoted h.1
      split
      · exact nofun
      · split <;> exact nofun

end Template

/-- Without a fixed text, what is written for nothing is not empty. -/
theorem Modifier.ne_nil_of_evaluate [Host] {m : Modifier} (hraw : m.raw = none) {context : Context}
    {lookup : Lookup} {asXml : Bool} {s : Text}
    (h : m.evaluate .none context lookup asXml = .ok (some s)) : s ≠ [] := by
  unfold evaluate at h
  rw [hraw] at h
  cases hval : m.val with
  | some val => rw [hval] at h; cases h
  | none =>
    rw [hval] at h
    obtain ⟨body, -, hbody⟩ := map_eq_ok.1 h
    obtain ⟨t, ht, rfl⟩ := Option.map_eq_some_iff.1 hbody
    obtain ⟨u, -, hu⟩ := Option.bind_eq_some_iff.1 ht
    have hne : t ≠ [] := by
      unfold Template.nonEmpty at hu
      split at hu
      · cases hu
      · next hne => exact Option.some.inj hu ▸ hne
    simp [wrap, hne]

/-! ## Texts of entries -/

namespace Rule

variable {r : Rule} {start : Shared} {values : List Text}

theorem nil_mem_defaultValues [Host] (h : r.defaultValues.run' start = .ok values) :
    [] ∈ values ↔ r.modifier.raw = some [] := by
  rw [run'_defaultValues] at h
  obtain ⟨o, ho, rfl⟩ := map_eq_ok.1 h
  rw [Option.mem_toList]
  cases hraw : r.modifier.raw with
  | some raw =>
    have hevaluate : r.modifier.evaluate .none start.context none false = .ok (some raw) := by
      unfold Modifier.evaluate
      rw [hraw]
    rw [evaluate, hevaluate] at ho
    rw [← Except.ok.inj ho]
  | none =>
    refine iff_of_false ?_ nofun
    rintro rfl
    unfold evaluate at ho
    cases hevaluate : r.modifier.evaluate .none start.context none false with
    | error why => rw [hevaluate] at ho; cases ho
    | ok t =>
      rw [hevaluate] at ho
      obtain rfl : t = some [] := Except.ok.inj ho
      exact Modifier.ne_nil_of_evaluate hraw hevaluate rfl

/-- A source gives no empty text; a fixed text stands whatever the source. -/
theorem nil_mem_values [Host] (h : r.values.run' start = .ok values) :
    [] ∈ values ↔ r.modifier.raw = some [] := by
  unfold Rule.values at h
  split at h
  · next source hraw _ =>
    refine iff_of_false ?_ (by rw [hraw]; exact nofun)
    rw [run'_sourceValues] at h
    obtain ⟨texts, htexts, rfl⟩ := map_eq_ok.1 h
    have hfull : ∀ s ∈ texts, s ≠ [] := by
      unfold occurrences at htexts
      split at htexts
      · rw [← Except.ok.inj htexts]
        exact List.forall_mem_nil _
      · obtain ⟨written, -, rfl⟩ := map_eq_ok.1 htexts
        intro s hs
        simpa using (List.mem_filter.1 hs).2
    exact fun hmem => hfull [] (mem_distinct.1 hmem) rfl
  · exact nil_mem_defaultValues h

end Rule

/-! ## Records -/

namespace Config

variable {c : Config} {vars : Pairs Text Value} {document : SourceDocument} {record : Record}

theorem nil_mem_works [Host] {start : Shared} {w : Entry × Sharing (List Text)} (hw : w ∈ c.works)
    {values : List Text} (h : w.2.run' start = .ok values) :
    [] ∈ values ↔ ∃ r, w.1 = .rule r ∧ r.modifier.raw = some [] := by
  rcases List.mem_append.1 hw with hw | hw
  · obtain ⟨e, _, rfl⟩ := List.mem_map.1 hw
    cases e with
    | rule r => simpa using Rule.nil_mem_defaultValues h
    | faulty p => simp [← Except.ok.inj h]
  · obtain ⟨e, _, rfl⟩ := List.mem_map.1 hw
    cases e with
    | rule r => simpa using Rule.nil_mem_values h
    | faulty p => simp [← Except.ok.inj h]

theorem exists_work [Host] {e : Entry} : (∃ w ∈ c.works, w.1 = e) ↔ e ∈ c.default ++ c.mapping := by
  unfold works
  rw [List.mem_append]
  constructor
  · rintro ⟨w, hw, rfl⟩
    refine (List.mem_append.1 hw).imp (fun hw => ?_) fun hw => ?_
    · obtain ⟨e, he, rfl⟩ := List.mem_map.1 hw
      exact he
    · obtain ⟨e, he, rfl⟩ := List.mem_map.1 hw
      exact he
  · rintro (he | he)
    · exact ⟨_, List.mem_append_left _ (List.mem_map_of_mem he), rfl⟩
    · exact ⟨_, List.mem_append_right _ (List.mem_map_of_mem he), rfl⟩

/-- **No field is without a text**, and a text is empty only when it is the fixed text of an
entry. -/
theorem nil_mem_convert_iff [Host] (h : c.convert vars document = .ok record) :
    (∀ p ∈ record, p.2 ≠ []) ∧
      ∀ f, [] ∈ (Pairs.get? f record).getD [] ↔
        ∃ r, .rule r ∈ c.default ++ c.mapping ∧ r.destination.field = f ∧
          r.modifier.raw = some [] := by
  cases hp : c.resolveParams vars none with
  | error e =>
    unfold convert at h
    rw [hp] at h
    cases h
  | ok params =>
    obtain ⟨hgiven, rfl⟩ := (convert_eq_ok hp).1 h
    constructor
    · intro p hp hnil
      have hkeys : (Pairs.keys (recordFrom (c.start params vars document) c)).Nodup := by
        rw [keys_recordFrom]
        exact nodup_distinct _
      have hfield := (mem_keys_recordFrom _ c p.1).1 (List.mem_map_of_mem hp)
      rw [Pairs.get?_of_mem hkeys hp] at hfield
      exact hfield hnil
    · intro f
      rw [getD_recordFrom_works, List.mem_flatMap]
      constructor
      · rintro ⟨w, hw, hmem⟩
        split at hmem
        · next hfield =>
          obtain ⟨r, hr, hraw⟩ := (nil_mem_works hw (hgiven w hw)).1 hmem
          rw [hr] at hfield
          exact ⟨r, exists_work.1 ⟨w, hw, hr⟩, Option.some.inj hfield, hraw⟩
        · cases hmem
      · rintro ⟨r, hr, rfl, hraw⟩
        obtain ⟨w, hw, hwr⟩ := exists_work.2 hr
        refine ⟨w, hw, ?_⟩
        rw [if_pos (by rw [hwr]; rfl)]
        exact (nil_mem_works hw (hgiven w hw)).2 ⟨r, hwr, hraw⟩

/-- A mapping with a title between quotes, before an entry that reads the document. -/
def quotedTitle (title : Text) : Text :=
  "[mapping]\ndcterms:title = \"" ++ title ++ "\"\nid = dcterms:identifier"

/-- A document with an identifier. -/
def numbered : SourceDocument := .data (.map [("id", .str "1")])

theorem nil_mem_convert_iff_title : ∃ record,
    (ofLines Loader.bareLoader.resolver none (quotedTitle " ")).convert [] numbered = .ok record ∧
      (∀ p ∈ record, p.2 ≠ []) ∧ [] ∈ (Pairs.get? ("dcterms:title" : Text) record).getD [] ∧
      [] ∉ (Pairs.get? ("dcterms:identifier" : Text) record).getD [] := by
  have h : (ofLines Loader.bareLoader.resolver none (quotedTitle " ")).convert [] numbered =
      .ok [("dcterms:title", [[]]), ("dcterms:identifier", ["1"])] := by decide +kernel
  have hentries : (ofLines Loader.bareLoader.resolver none (quotedTitle " ")).default ++
      (ofLines Loader.bareLoader.resolver none (quotedTitle " ")).mapping =
      [.rule ⟨none, ⟨"dcterms:title", none, [], none, none, some "dcterms:title ~ \" \""⟩, .ofRaw []⟩,
        .rule ⟨some ⟨.jsdot, "id"⟩,
          ⟨"dcterms:identifier", none, [], none, none, some "dcterms:identifier"⟩, .empty⟩] := by
    decide +kernel
  obtain ⟨hfilled, hnil⟩ := nil_mem_convert_iff h
  rw [hentries] at hnil
  refine ⟨_, h, hfilled, (hnil _).2 ⟨_, List.mem_cons_self, rfl, rfl⟩, fun hmem => ?_⟩
  obtain ⟨r, hr, hfield, hraw⟩ := (hnil _).1 hmem
  rcases List.mem_cons.1 hr with hr | hr
  · rw [Entry.rule.inj hr] at hfield
    exact absurd hfield (by decide)
  · rw [Entry.rule.inj (List.mem_singleton.1 hr)] at hraw
    cases hraw

/-- Quotes with nothing between them are written as an empty text. -/
theorem empty_title_written : ∃ c,
    Loader.bareLoader.load none none (quotedTitle []) = .ok c ∧ c.problems = [] ∧
      c.convert [] numbered = .ok [("dcterms:title", [[]]), ("dcterms:identifier", ["1"])] := by
  have hload : Loader.bareLoader.load none none (quotedTitle []) =
      .ok (ofLines Loader.bareLoader.resolver none (quotedTitle [])) := by decide +kernel
  exact ⟨_, hload, by decide +kernel, by decide +kernel⟩

end Config
end Crosswalk
