import Crosswalk.Destination.Datatypes
import Crosswalk.Proofs.Pairs
import Crosswalk.Proofs.Text.Blank
import Crosswalk.Proofs.Text.Mark
import Crosswalk.Proofs.Text.Replace

/-!
# Names of datatypes

A registered name stands for itself. Any other text is read as a short name, and stands for the one
registered name whose last part it is (`StandsFor`):

    d.canonical name = some (trim name)                                when that is registered
    d.canonical name = some full ↔ StandsFor d.names (trim name) full            otherwise

A list of names is read to the first occurrences of what they stand for (`canonical_registered`).
-/

namespace Crosswalk

open Text

namespace Datatypes

variable {d : Datatypes} {names : List Text} {name short full : Text}

/-- The short name is what follows the last colon of the full one. -/
def EndsIn (full short : Text) : Prop := ':' ∉ short ∧ ∃ start, full = start ++ ':' :: short

/-- Of the registered names, this one alone ends in the short name, which is no number. -/
structure StandsFor (names : List Text) (short full : Text) : Prop where
  ne_nil : short ≠ []
  not_number : ¬∀ c ∈ short, isDigitSign c = true
  registered : full ∈ names
  endsIn : EndsIn full short
  alone : ∀ other ∈ names, EndsIn other short → other = full

/-! ## Short names -/

theorem endsIn_iff : EndsIn full short ↔ (cutLast? ':' full).map Prod.snd = some short := by
  rw [Option.map_eq_some_iff]
  constructor
  · rintro ⟨hshort, start, rfl⟩
    exact ⟨_, cutLast?_append hshort start, rfl⟩
  · rintro ⟨⟨start, last⟩, hcut, rfl⟩
    obtain ⟨hfull, hlast⟩ := cutLast?_eq_some_iff.1 hcut
    exact ⟨hlast, start, hfull⟩

instance : Decidable (EndsIn full short) := decidable_of_iff _ endsIn_iff.symm

theorem standsFor_iff : StandsFor names short full ↔
    short ≠ [] ∧ ¬short.all isDigitSign = true ∧ full ∈ names ∧ EndsIn full short ∧
      ∀ other ∈ names, EndsIn other short → other = full := by
  rw [List.all_eq_true]
  constructor
  · rintro ⟨hne, hnumber, hmem, hends, halone⟩
    exact ⟨hne, hnumber, hmem, hends, halone⟩
  · rintro ⟨hne, hnumber, hmem, hends, halone⟩
    exact ⟨hne, hnumber, hmem, hends, halone⟩

instance : Decidable (StandsFor names short full) := decidable_of_iff _ standsFor_iff.symm

theorem shortName?_eq_some_iff : shortName? name = some short ↔
    EndsIn name short ∧ short ≠ [] ∧ ¬∀ c ∈ short, isDigitSign c = true := by
  rw [endsIn_iff, shortName?]
  cases cutLast? ':' name with
  | none => simp
  | some p =>
    obtain ⟨start, last⟩ := p
    show (if last = [] ∨ last.all isDigitSign then none else some last) = some short ↔
      some last = some short ∧ _
    split
    · next hnumber =>
      constructor
      · intro h
        cases h
      · rintro ⟨h, hne, hnot⟩
        obtain rfl := Option.some.inj h
        exact absurd (List.all_eq_true.1 (hnumber.resolve_left hne)) hnot
    · next hname =>
      obtain ⟨hne, hnot⟩ := not_or.1 hname
      constructor
      · intro h
        obtain rfl := Option.some.inj h
        exact ⟨h, hne, mt List.all_eq_true.2 hnot⟩
      · rintro ⟨h, -⟩
        exact h

/-- Without repetitions, a test picks one item when that is the only one to pass. -/
theorem filter_eq_singleton_iff {α : Type} {xs : List α} (hxs : xs.Nodup) {p : α → Bool} {x : α} :
    xs.filter p = [x] ↔ x ∈ xs ∧ p x = true ∧ ∀ y ∈ xs, p y = true → y = x := by
  have hmem : ∀ y, y ∈ xs.filter p ↔ y ∈ xs ∧ p y = true := fun y => List.mem_filter
  constructor
  · intro h
    rw [h] at hmem
    obtain ⟨hx, hp⟩ := (hmem x).1 List.mem_cons_self
    exact ⟨hx, hp, fun y hy hpy => List.mem_singleton.1 ((hmem y).2 ⟨hy, hpy⟩)⟩
  · rintro ⟨hx, hp, honly⟩
    apply List.perm_singleton.1
    apply (List.perm_ext_iff_of_nodup (hxs.filter p) (List.nodup_singleton x)).2
    intro y
    rw [hmem, List.mem_singleton]
    constructor
    · rintro ⟨hy, hpy⟩
      exact honly y hy hpy
    · rintro rfl
      exact ⟨hx, hp⟩

theorem ofShort_eq_some_iff : d.ofShort short = some full ↔ StandsFor d.names short full := by
  have hone : d.ofShort short = some full ↔
      (distinct d.names).filter (fun n => shortName? n == some short) = [full] := by
    unfold ofShort
    split
    · next n hn => rw [hn]; simp
    · next hnot =>
      constructor
      · intro h
        cases h
      · intro h
        exact absurd h (hnot full)
  rw [hone, filter_eq_singleton_iff (nodup_distinct _)]
  simp only [mem_distinct, beq_iff_eq, shortName?_eq_some_iff]
  constructor
  · rintro ⟨hmem, ⟨hends, hne, hnumber⟩, honly⟩
    exact ⟨hne, hnumber, hmem, hends, fun other ho h => honly other ho ⟨h, hne, hnumber⟩⟩
  · rintro ⟨hne, hnumber, hmem, hends, halone⟩
    exact ⟨hmem, ⟨hends, hne, hnumber⟩, fun other ho h => halone other ho h.1⟩

/-! ## Names in full -/

theorem canonical_of_not_custom (h : startsWith customMark (trim name) = false) :
    d.canonical name =
      if trim name ∈ d.names then some (trim name) else d.ofShort (trim name) := by
  unfold canonical
  simp only [after?_eq_none.2 h, List.elem_iff]

/-- **What names of datatypes stand for.** -/
theorem canonical_registered (d : Datatypes) :
    (∀ name, startsWith customMark (trim name) = false →
      (trim name ∈ d.names → d.canonical name = some (trim name)) ∧
      (trim name ∉ d.names → ∀ full,
        d.canonical name = some full ↔ StandsFor d.names (trim name) full)) ∧
    ∀ names, FirstSeen (d.canonicalize names) (names.filterMap d.canonical) := by
  refine ⟨?_, fun names => firstSeen_distinct _⟩
  intro name hname
  rw [canonical_of_not_custom hname]
  constructor
  · intro hmem
    exact if_pos hmem
  · intro hmem full
    rw [if_neg hmem, ofShort_eq_some_iff]

/-- Names of which two end alike, and one ends in a number. -/
def sampleNames : Datatypes where
  names := ["literal", "numeric:integer", "resource:item", "table:item", "customvocab:3"]
  customId := fun _ => none

theorem canonical_registered_integer :
    sampleNames.canonical " integer " = some ("numeric:integer" : Text) ∧
    sampleNames.canonical "item" = none ∧ sampleNames.canonical "3" = none ∧
    FirstSeen (sampleNames.canonicalize ["integer", "item", "literal", "numeric:integer"])
      ["numeric:integer", "literal", "numeric:integer"] := by
  obtain ⟨hnames, hlists⟩ := canonical_registered sampleNames
  have hinteger := (hnames " integer " (by decide)).2 (by decide)
  have hitem := (hnames "item" (by decide)).2 (by decide)
  have hnumber := (hnames "3" (by decide)).2 (by decide)
  refine ⟨(hinteger "numeric:integer").2 (by decide), ?_, ?_, ?_⟩
  · apply Option.eq_none_iff_forall_ne_some.2
    intro full h
    have halone := ((hitem full).1 h).alone
    have hsame := (halone "resource:item" (by decide) (by decide)).trans
      (halone "table:item" (by decide) (by decide)).symm
    exact absurd hsame (by decide)
  · apply Option.eq_none_iff_forall_ne_some.2
    intro full h
    exact ((hnumber full).1 h).not_number (forall_mem_of_all (by decide))
  · exact hlists ["integer", "item", "literal", "numeric:integer"]

end Datatypes
end Crosswalk
