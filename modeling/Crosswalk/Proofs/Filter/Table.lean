import Crosswalk.Host.Bundled
import Crosswalk.Proofs.Filter.Call
import Mathlib.Data.List.Nodup

/-!
# Tables read both ways

The filter `table` reads a table from its codes to its labels, and from its labels to its codes when
it is asked for the code. In a table whose codes and labels have no repetitions, row by row:

    code c            ↦ label l                                                (`labelOf_of_mem`)
    label l, strictly ↦ code c                                                 (`codeOf_strict`)
    label l, loosely  ↦ code c  ↔  Foremost terms c l                          (`codeOf_loose_iff`)

A loose search for a code takes the first label that is equal but for its case, so a row is read
back only when no such label stands above it (`Foremost`). What meets no code, or no label, even
regardless of case stays as it is.
-/

namespace Crosswalk.Filter

open Text

/-! ## Rows of a table -/

variable {terms : Pairs Text Text} {c l w : Text} {strict : Bool}

/-- No label that is equal to `l` but for its case stands above the row of `c` and `l`. -/
def Foremost (terms : Pairs Text Text) (c l : Text) : Prop :=
  ∃ above below, terms = above ++ (c, l) :: below ∧ ∀ p ∈ above, lower p.2 ≠ lower l

theorem labelOf_of_mem (hcodes : (Pairs.keys terms).Nodup) (h : (c, l) ∈ terms) :
    labelOf strict terms c = l := by
  rw [labelOf, Pairs.get?_of_mem hcodes h]

theorem labelOf_of_miss (h : ∀ p ∈ terms, lower p.1 ≠ lower w) : labelOf strict terms w = w := by
  have hget : Pairs.get? w terms = none := by
    rw [Pairs.get?_eq_none]
    intro hw
    obtain ⟨p, hp, rfl⟩ := List.mem_map.1 hw
    exact h p hp rfl
  have hfind : (terms.find? fun p => lower p.1 == lower w) = none := by
    rw [List.find?_eq_none]
    intro p hp
    simpa using h p hp
  rw [labelOf, hget]
  dsimp only
  rw [hfind]
  exact ite_self w

theorem codeOf_of_miss (h : ∀ p ∈ terms, lower p.2 ≠ lower w) : codeOf strict terms w = w := by
  have hfind : (terms.find? fun p => p.2 == w || (!strict && lower p.2 == lower w)) = none := by
    rw [List.find?_eq_none]
    intro p hp
    have hne : p.2 ≠ w := fun e => h p hp (congrArg lower e)
    simp [hne, h p hp]
  rw [codeOf, hfind]
  rfl

/-- A strict search finds the one row with the label. -/
theorem codeOf_strict (hlabels : (terms.map (·.2)).Nodup) (h : (c, l) ∈ terms) :
    codeOf true terms l = c := by
  have hsome : (terms.find? fun p => p.2 == l || (!true && lower p.2 == lower l)).isSome := by
    rw [List.find?_isSome]
    exact ⟨(c, l), h, by simp⟩
  obtain ⟨p, hp⟩ := Option.isSome_iff_exists.1 hsome
  have hlabel : p.2 = l := by simpa using List.find?_some hp
  have hrow : p = (c, l) :=
    List.inj_on_of_nodup_map hlabels (List.mem_of_find?_eq_some hp) h hlabel
  rw [codeOf, hp, hrow]
  rfl

/-- A loose search finds the first row whose label is equal but for its case. -/
theorem codeOf_loose_iff (hcodes : (Pairs.keys terms).Nodup) (h : (c, l) ∈ terms) :
    codeOf false terms l = c ↔ Foremost terms c l := by
  have hpred : (fun p : Text × Text => p.2 == l || (!false && lower p.2 == lower l)) =
      fun p => lower p.2 == lower l := by
    funext p
    by_cases hp : p.2 = l <;> simp [hp]
  rw [codeOf, hpred]
  constructor
  · intro hcode
    have hsome : (terms.find? fun p => lower p.2 == lower l).isSome := by
      rw [List.find?_isSome]
      exact ⟨(c, l), h, by simp⟩
    obtain ⟨p, hp⟩ := Option.isSome_iff_exists.1 hsome
    rw [hp] at hcode
    have hrow : p = (c, l) :=
      List.inj_on_of_nodup_map hcodes (List.mem_of_find?_eq_some hp) h hcode
    obtain ⟨-, above, below, hterms, habove⟩ := List.find?_eq_some_iff_append.1 hp
    refine ⟨above, below, hrow ▸ hterms, ?_⟩
    intro q hq
    simpa using habove q hq
  · rintro ⟨above, below, hterms, habove⟩
    have hfind : (terms.find? fun p => lower p.2 == lower l) = some (c, l) := by
      rw [List.find?_eq_some_iff_append]
      refine ⟨by simp, above, below, hterms, ?_⟩
      intro q hq
      simpa using habove q hq
    rw [hfind]
    rfl

/-! ## Calls -/

/-- A step calls `table` with a name, and with no table between braces. -/
structure NamesTable (scope : Scope) (step name : Text) (more : List Text) : Prop extends
    Calls scope step "table" (name :: more) where
  unbraced : (readCall step).2.head? ≠ some '{'

variable {scope : Scope} {step name : Text} {more : List Text}

theorem NamesTable.applyStep [Host] (h : NamesTable scope step name more)
    (hterms : Pairs.get? name scope.tables = some terms) (v : Datum) :
    applyStep scope v step = .ok (.text (
      if more[0]? = some ("code" : Text) then codeOf (isStrict more[1]?) terms v.first
      else labelOf (isStrict more[1]?) terms v.first)) := by
  have hnamed : namedTable v ⟨(readCall step).2, scope⟩ =
      if more[0]? = some ("code" : Text) then codeOf (isStrict more[1]?) terms v.first
      else labelOf (isStrict more[1]?) terms v.first := by
    unfold namedTable
    simp only [h.at?, List.getElem?_cons_zero, List.getElem?_cons_succ, Option.getD_some, hterms]
    rfl
  have hunbraced := h.unbraced
  have htable : table v ⟨(readCall step).2, scope⟩ =
      .ok (.text (namedTable v ⟨(readCall step).2, scope⟩)) := by
    unfold table
    dsimp only
    rw [trim_readCall]
    split
    · next inside hinside =>
      rw [hinside] at hunbraced
      exact absurd rfl hunbraced
    · rfl
  rw [h.toCalls.applyStep rfl, applyFilter, htable, hnamed]

theorem listText_eq (name : Argument) (more : List Argument) :
    ∃ rest, listText (name :: more) = name.before ++ name.quote :: rest := by
  cases more with
  | nil =>
    refine ⟨name.text ++ name.quote :: name.after, ?_⟩
    simp [listText, Argument.written, Argument.literal]
  | cons b more =>
    refine ⟨name.text ++ name.quote :: (name.after ++ ',' :: listText (b :: more)), ?_⟩
    rw [listText, List.map_cons, joinWith_cons _ _ (by simp), listText]
    simp [Argument.written, Argument.literal]

/-- A text between quotes is the name of a table. -/
theorem namesTable_callText (hv : ∀ name ∈ Pairs.keys scope.vars, name.any isQuoteMark = false)
    (name : Argument) (more : List Argument) :
    NamesTable scope (callText "table" (listText (name :: more))) name.text
      (more.map Argument.text) := by
  have hword : ∀ c ∈ ("table" : Text), isAsciiWord c = true := forall_mem_of_all (by decide)
  refine ⟨calls_callText (by decide) hword hv (name :: more), ?_⟩
  obtain ⟨rest, hrest⟩ := listText_eq name more
  obtain ⟨t, -, ht, -⟩ := exists_trim_cons name.isBlank_quote rest
  have htrim : trim (listText (name :: more)) = name.quote :: t := by
    have hblank := trim_surrounded name.before_blank (name.quote :: rest) (List.forall_mem_nil _)
    rw [List.append_nil] at hblank
    rw [hrest, hblank, ht]
  rw [readCall_callText (by decide) hword, htrim, List.head?_cons]
  rcases name.quote_eq with h | h
  · rw [h]
    decide
  · rw [h]
    decide

/-- **Both ways.** For a table whose codes, and whose labels, have no repetitions: asked for the
label, a code gives its own; asked for the code, a label gives its own when the search is strict,
and otherwise exactly when no label above it is equal but for its case. A text that meets nothing
even regardless of case stays as it is. -/
theorem table_inverse [Host] (hterms : Pairs.get? name scope.tables = some terms)
    (hcodes : (Pairs.keys terms).Nodup) (hlabels : (terms.map (·.2)).Nodup) :
    (∀ step more, NamesTable scope step name more → more[0]? ≠ some ("code" : Text) →
      (∀ c l, (c, l) ∈ terms → ∀ v : Datum, v.first = c →
        applyStep scope v step = .ok (.text l)) ∧
      ∀ v : Datum, (∀ p ∈ terms, lower p.1 ≠ lower v.first) →
        applyStep scope v step = .ok (.text v.first)) ∧
    ∀ step more, NamesTable scope step name ("code" :: more) →
      (∀ c l, (c, l) ∈ terms → ∀ v : Datum, v.first = l →
        (applyStep scope v step = .ok (.text c) ↔
          isStrict more[0]? = true ∨ Foremost terms c l)) ∧
      ∀ v : Datum, (∀ p ∈ terms, lower p.2 ≠ lower v.first) →
        applyStep scope v step = .ok (.text v.first) := by
  constructor
  · intro step more h hmore
    constructor
    · intro c l hrow v hv
      rw [h.applyStep hterms, if_neg hmore, hv, labelOf_of_mem hcodes hrow]
    · intro v hv
      rw [h.applyStep hterms, if_neg hmore, labelOf_of_miss hv]
  · intro step more h
    constructor
    · intro c l hrow v hv
      rw [h.applyStep hterms, if_pos List.getElem?_cons_zero, hv, List.getElem?_cons_succ,
        Except.ok.injEq, Datum.text.injEq]
      cases hstrict : isStrict more[0]? with
      | true => simp [codeOf_strict hlabels hrow]
      | false => simp [codeOf_loose_iff hcodes hrow]
    · intro v hv
      rw [h.applyStep hterms, if_pos List.getElem?_cons_zero, codeOf_of_miss hv]

/-- Sizes whose codes and labels differ by their case alone. -/
def sizes : Pairs Text Text := [("S", "Small"), ("s", "small"), ("M", "Medium")]

def sizesScope : Scope := ⟨[], [("sizes", sizes)]⟩

theorem table_inverse_sizes :
    Pairs.get? ("sizes" : Text) sizesScope.tables = some sizes ∧ (Pairs.keys sizes).Nodup ∧
      (sizes.map (·.2)).Nodup ∧
      applyStep sizesScope (.text "s") "table(sizes)" = .ok (.text "small") ∧
      applyStep sizesScope (.text "XL") "table(sizes)" = .ok (.text "XL") ∧
      applyStep sizesScope (.text "Small") "table(sizes, 'code')" = .ok (.text "S") ∧
      applyStep sizesScope (.text "small") "table(sizes, 'code', 1)" = .ok (.text "s") ∧
      applyStep sizesScope (.text "large") "table(sizes, 'code')" = .ok (.text "large") := by
  have hterms : Pairs.get? ("sizes" : Text) sizesScope.tables = some sizes := by decide
  have hcodes : (Pairs.keys sizes).Nodup := by decide
  have hlabels : (sizes.map (·.2)).Nodup := by decide
  obtain ⟨hlabel, hcode⟩ := table_inverse hterms hcodes hlabels
  have hname : NamesTable sizesScope "table(sizes)" "sizes" [] :=
    ⟨⟨by decide, by decide⟩, by decide⟩
  have hloose : NamesTable sizesScope "table(sizes, 'code')" "sizes" ["code"] :=
    ⟨⟨by decide, by decide⟩, by decide⟩
  have hstrict : NamesTable sizesScope "table(sizes, 'code', 1)" "sizes" ["code", "1"] :=
    ⟨⟨by decide, by decide⟩, by decide⟩
  refine ⟨hterms, hcodes, hlabels, ?_, ?_, ?_, ?_, ?_⟩
  · exact (hlabel _ _ hname (by decide)).1 "s" "small" (by decide) _ rfl
  · exact (hlabel _ _ hname (by decide)).2 (.text "XL") (by decide)
  · exact ((hcode _ _ hloose).1 "S" "Small" (by decide) _ rfl).2 (.inr ⟨[], _, rfl, by decide⟩)
  · exact ((hcode _ _ hstrict).1 "s" "small" (by decide) _ rfl).2 (.inl (by decide))
  · exact (hcode _ _ hloose).2 (.text "large") (by decide)

/-- A loose search gives the code of another label, although no two labels are equal. -/
theorem code_of_other_case :
    (sizes.map (·.2)).Nodup ∧ (("s", "small") : Text × Text) ∈ sizes ∧
      applyStep sizesScope (.text "small") "table(sizes, 'code')" = .ok (.text "S") ∧
      applyStep sizesScope (.text "small") "table(sizes, 'code')" ≠ .ok (.text "s") := by
  decide

end Crosswalk.Filter
