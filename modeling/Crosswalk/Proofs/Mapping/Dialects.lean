import Crosswalk.Mapping.Xml
import Crosswalk.Proofs.Mapping.Lines

/-!
# An entry in both dialects

An entry that reads a path and fills a field can be written as a line and as a map of a mapping in
xml. The parts are the same, the ways they are read have nothing in common; the entries are equal
but for the text of the descriptor that each keeps:

    Carries w q element →
      (readLine r q false w.line).map unwritten = [(Entry.ofMap r index element).unwritten]
                                                                              (readLine_agrees)

Every entry can be written both ways: `w.element q` is a map that carries the parts
(`carries_element`).
-/

namespace Crosswalk

open Text

/-! ## Elements -/

/-- The element of a map that says the same: the path under the name of its querier alone, and the
parts of the descriptor as attributes, each left out when it is not there. -/
structure Carries (w : Parts) (q : Querier) (element : Xml.Node) : Prop where
  source : ∃ n, element.child? "from" = some n ∧
    ∀ p : Querier, n.filled? p.name = if p = q then some w.path else none
  target : ∃ n, element.child? "to" = some n ∧ n.attribute? "field" = some w.field ∧
    (n.attribute? "datatype").getD [] = joinWith [' '] w.datatypes ∧
    n.filled? "language" = w.language ∧
    n.filled? "visibility" = w.visibility.map Visibility.text
  mod : match element.child? "mod" with
    | none => w.pattern = none
    | some n => n.filled? "raw" = none ∧ n.filled? "val" = none ∧
        n.filled? "pattern" = w.pattern ∧ n.filled? "prepend" = none ∧ n.filled? "append" = none

section
variable {n : Xml.Node} {name : Text}

theorem Xml.Node.getD_attribute? : (n.attribute? name).getD [] = (n.filled? name).getD [] := by
  unfold Xml.Node.filled?
  cases n.attribute? name with
  | none => rfl
  | some s => cases s <;> rfl

/-- Where an empty text counts for nothing, an empty attribute is as good as none. -/
theorem Xml.Node.attribute?_bind {α : Type} {f : Text → Option α} (hf : f [] = none) :
    (n.attribute? name).bind f = (n.filled? name).bind f := by
  unfold Xml.Node.filled?
  cases n.attribute? name with
  | none => rfl
  | some s =>
    cases s with
    | nil => exact hf
    | cons c s => rfl

/-- An attribute that is not there and an empty one compile to the same. -/
theorem compile?_attribute :
    Template.compile? (n.attribute? name) = Template.compile? (n.filled? name) := by
  unfold Xml.Node.filled?
  cases n.attribute? name with
  | none => rfl
  | some s => cases s <;> rfl

theorem nonEmpty_of_ne {s : Text} (h : s ≠ []) : Template.nonEmpty s = some s := if_neg h

theorem nonEmpty_ne {s t : Text} (h : t ∈ Template.nonEmpty s) : t ≠ [] := by
  unfold Template.nonEmpty at h
  split at h
  · cases h
  · next hne => exact Option.mem_some.1 h ▸ hne

/-- The texts around a template are not empty. -/
def Modifier.Filled (m : Modifier) : Prop := (∀ t ∈ m.prepend, t ≠ []) ∧ ∀ t ∈ m.append, t ≠ []

theorem Modifier.Filled.around {m : Modifier} (h : m.Filled) : m.around [] [] = m := by
  have hnonEmpty : ∀ o : Option Text, (∀ t ∈ o, t ≠ []) → Template.nonEmpty (o.getD []) = o := by
    rintro (_ | t) ht
    · rfl
    · exact if_neg (ht t rfl)
  obtain ⟨raw, val, prepend, pattern, append, replace, filters, hasReplace⟩ := m
  simp only [Modifier.around, List.nil_append, List.append_nil, hnonEmpty prepend h.1,
    hnonEmpty append h.2]

theorem filled_compile? (pattern : Option Text) : (Template.compile? pattern).Filled := by
  have hempty : Modifier.Filled .empty := ⟨nofun, nofun⟩
  cases pattern with
  | none => exact hempty
  | some s =>
    simp only [Template.compile?, Template.compile]
    split_ifs
    · exact hempty
    · exact ⟨nofun, nofun⟩
    · exact ⟨nofun, nofun⟩
    · split
      · exact ⟨nofun, nofun⟩
      · exact ⟨fun _ => nonEmpty_ne, fun _ => nonEmpty_ne⟩

end

namespace Carries

variable {w : Parts} {q : Querier} {element : Xml.Node}

theorem sourceOf (h : Carries w q element) (index : Nat) :
    sourceOf index element = .ok (some ⟨q, w.path⟩) := by
  obtain ⟨n, hn, hpath⟩ := h.source
  have hpaths : pathsOf n = [⟨q, w.path⟩] := by
    unfold pathsOf
    cases q <;> simp [Querier.all, hpath]
  simp only [Crosswalk.sourceOf, hn, hpaths]

theorem modifierOf (h : Carries w q element) :
    modifierOf (element.child? "mod") = Template.compile? w.pattern := by
  have hmod := h.mod
  cases hn : element.child? "mod" with
  | none =>
    rw [hn] at hmod
    rw [hmod]
    rfl
  | some n =>
    rw [hn] at hmod
    obtain ⟨hraw, hval, hpattern, hprepend, happend⟩ := hmod
    simp only [Crosswalk.modifierOf, hraw, hval, compile?_attribute, hpattern,
      Xml.Node.getD_attribute?, hprepend, happend, Option.getD_none,
      (filled_compile? w.pattern).around, ite_self]

theorem destinationOf (h : Carries w q element) {n : Xml.Node} (hn : element.child? "to" = some n)
    (r : Resolver) (m : Modifier) {f : Text} (hf : words f = words w.field) :
    destinationOf r n f m =
      (w.destination r).map fun d => { d with written := some (d.write m.written) } := by
  obtain ⟨n', hn', -, hdatatypes, hlanguage, hvisibility⟩ := h.target
  obtain rfl : n = n' := Option.some.inj (hn.symm.trans hn')
  have htag : (n.attribute? "language").bind nonBlank = w.language.bind nonBlank := by
    rw [Xml.Node.attribute?_bind rfl, hlanguage]
  have hvisible : visibilityOf n = w.visibility := by
    rw [visibilityOf, Xml.Node.attribute?_bind rfl, hvisibility]
    obtain _ | _ | _ := w.visibility <;> rfl
  unfold Crosswalk.destinationOf
  rw [hdatatypes, readDatatypes_join w.datatypes_plain, hvisible, r.build_congr hf htag]
  rfl

/-- A map gives the entry of its parts. -/
theorem ofMap (h : Carries w q element) (r : Resolver) (index : Nat) :
    (Entry.ofMap r index element).unwritten = w.entry r q := by
  obtain ⟨n, hn, hattribute, -⟩ := h.target
  obtain ⟨c, s, hf, hc⟩ := w.exists_field
  obtain ⟨t, -, htrim, -⟩ := exists_trim_cons (not_isBlank_of_isAsciiLetter hc) s
  have hfield : fieldOf (some n) = c :: t := by
    rw [fieldOf, Option.bind_some, hattribute, Option.getD_some, hf, htrim]
  have hwords : words (c :: t) = words w.field := by
    rw [← htrim, words_trim, hf]
  unfold Entry.ofMap
  simp only [h.sourceOf, h.modifierOf, hn, hfield, h.destinationOf hn r _ hwords, Parts.entry]
  cases hd : w.destination r with
  | error e => rfl
  | ok d =>
    have hwritten := w.written_of_destination r hd
    simp [Except.map, Entry.unwritten, ← hwritten]

end Carries

/-! ## Maps -/

/-- An element without namespaces. -/
def plainElement (name : Text) (attributes : List (Text × Text)) (children : List Xml.Node) :
    Xml.Node :=
  .element ⟨[], [], name⟩ (attributes.map fun p => ⟨⟨[], [], p.1⟩, p.2⟩) [] children

namespace Parts

variable (w : Parts) (q : Querier)

/-- The attributes of a destination; what is not there is left out. -/
def attributes : List (Text × Text) :=
  [(("field" : Text), w.field), (("datatype" : Text), joinWith [' '] w.datatypes)] ++
    (w.language.map fun s => (("language" : Text), s)).toList ++
    (w.visibility.map fun v => (("visibility" : Text), v.text)).toList

/-- A map that says the same as the line. -/
def element : Xml.Node :=
  plainElement "map" [] [
    plainElement "from" [(q.name, w.path)] [],
    plainElement "to" w.attributes [],
    plainElement "mod" (w.pattern.map fun s => (("pattern" : Text), s)).toList []]

theorem filled?_path (p : Querier) :
    (plainElement "from" [(q.name, w.path)] []).filled? p.name =
      if p = q then some w.path else none := by
  have hpath := nonEmpty_of_ne w.path_ne
  cases p <;> cases q <;> first | exact hpath | rfl

theorem filled?_language : (plainElement "to" w.attributes []).filled? "language" = w.language := by
  unfold attributes
  cases hlanguage : w.language with
  | none => cases w.visibility <;> rfl
  | some s => exact nonEmpty_of_ne (isLanguage_parts (w.language_tag s hlanguage)).1

theorem filled?_visibility : (plainElement "to" w.attributes []).filled? "visibility" =
    w.visibility.map Visibility.text := by
  unfold attributes
  obtain _ | _ | _ := w.visibility <;> cases w.language <;> rfl

theorem carries_element : Carries w q (w.element q) := by
  refine ⟨⟨_, rfl, w.filled?_path q⟩,
    ⟨_, rfl, rfl, rfl, w.filled?_language, w.filled?_visibility⟩, ?_⟩
  show _ ∧ _ ∧ _ ∧ _ ∧ _
  cases hpattern : w.pattern with
  | none => exact ⟨rfl, rfl, rfl, rfl, rfl⟩
  | some s => exact ⟨rfl, rfl, nonEmpty_of_ne (w.pattern_ne s hpattern), rfl, rfl⟩

end Parts

/-- A line and a map with the same parts give the same entry, but for the text of the
descriptor. -/
theorem readLine_agrees (r : Resolver) (q : Querier) (w : Parts) (index : Nat)
    (element : Xml.Node) (h : Carries w q element) :
    (readLine r q false w.line).map Entry.unwritten =
      [(Entry.ofMap r index element).unwritten] := by
  rw [w.readLine_line r q, h.ofMap r index]

/-- The quotes of the path hide marks from the cuts, and the pattern has marks of its own. -/
def Parts.quotedTitle : Parts where
  path := "a['~='] = b"
  field := "dcterms : title"
  datatypes := ["literal", "uri"]
  language := some "fra"
  visibility := some .hidden
  pattern := some "\x7b\x7b value|upper \x7d\x7d ~ '="
  path_ne := by decide
  path_trimmed := by decide
  path_paired := by decide
  path_unmarked := by decide
  field_letter := by decide
  field_unmarked := forall_mem_of_all (by decide)
  datatypes_plain := by decide
  language_tag := by decide
  pattern_ne := by decide
  pattern_trimmed := by decide

theorem readLine_agrees_title :
    Carries .quotedTitle .jmespath (Parts.quotedTitle.element .jmespath) ∧
      (readLine ⟨.dublinCoreAlone, true, []⟩ .jmespath false
        (("a['~='] = b = dcterms : title ^^literal;uri @fra §private" : Text) ++
          " ~ \x7b\x7b value|upper \x7d\x7d ~ '=")).map Entry.unwritten =
        [(Entry.ofMap ⟨.dublinCoreAlone, true, []⟩ 1
          (Parts.quotedTitle.element .jmespath)).unwritten] := by
  have hline : Parts.quotedTitle.line =
      ("a['~='] = b = dcterms : title ^^literal;uri @fra §private" : Text) ++
        " ~ \x7b\x7b value|upper \x7d\x7d ~ '=" := by
    decide
  have hcarries := Parts.quotedTitle.carries_element .jmespath
  refine ⟨hcarries, ?_⟩
  rw [← hline]
  exact readLine_agrees _ .jmespath Parts.quotedTitle 1 _ hcarries

end Crosswalk
