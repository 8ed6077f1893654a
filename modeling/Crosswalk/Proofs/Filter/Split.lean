import Crosswalk.Host.Bundled
import Crosswalk.Proofs.Filter.Call
import Crosswalk.Proofs.Text.Replace
import Mathlib.Data.List.DropRight

/-!
# Parts of a text

The filter `split` cuts a text at a delimiter, or into pieces of one size when the delimiter is
empty. With a delimiter (`PartsOf`):

    the parts join back to the text, and a positive limit is not exceeded
    without limit no part holds the delimiter                      (not_contains_of_mem_splitAll)
    a limit below zero leaves so many parts out at the end

Without one the pieces follow each other, all of the size but the last (`PiecesOf`). Parts are given
for every limit, except that a delimiter allows for no limit beyond `maxLimit` (`split_parts`).
-/

namespace Crosswalk

open Text

namespace Text

variable {mark s : Text} {n : Nat}

/-- With as many cuts as there are characters, none is missed. -/
theorem not_contains_of_mem_split (hmark : mark ≠ []) (hn : s.length ≤ n) :
    ∀ p ∈ split n mark s, contains mark p = false := by
  induction n generalizing s with
  | zero =>
    obtain rfl : s = [] := List.length_eq_zero_iff.1 (by omega)
    obtain ⟨c, mark, rfl⟩ := List.exists_cons_of_ne_nil hmark
    intro p hp
    obtain rfl := List.mem_singleton.1 hp
    rfl
  | succ n ih =>
    intro p hp
    rw [split] at hp
    cases hcut : cut? mark s with
    | none =>
      rw [hcut] at hp
      obtain rfl := List.mem_singleton.1 hp
      rw [contains, hcut]
      rfl
    | some q =>
      rw [hcut] at hp
      rcases List.mem_cons.1 hp with rfl | hp
      · exact not_contains_of_cut? hmark hcut
      · have hlen := length_lt_of_cut? hmark hcut
        exact ih (by omega) p hp

theorem not_contains_of_mem_splitAll (hmark : mark ≠ []) :
    ∀ p ∈ splitAll mark s, contains mark p = false :=
  not_contains_of_mem_split hmark (Nat.le_refl _)

end Text

namespace Filter

/-! ## Pieces of one size -/

/-- The first of these parts has as many characters as there is room for and the others have `size`,
but the last one may be shorter; none that follows another one is empty. -/
def Filled (size : Nat) : Nat → List Text → Prop
  | _, [] => False
  | room, [p] => p.length ≤ room
  | room, p :: q :: parts => p.length = room ∧ q ≠ [] ∧ Filled size size (q :: parts)

/-- The pieces of a text. -/
structure PiecesOf (size : Nat) (w : Text) (pieces : List Text) : Prop where
  flatten_eq : pieces.flatten = w
  full : ∀ p ∈ pieces.dropLast, p.length = size
  last : ∀ p ∈ pieces.getLast?, p.length ≤ size
  nonempty : w ≠ [] → [] ∉ pieces

variable {size room : Nat} {w : Text} {parts : List Text}

theorem Filled.cons {part : Text} (c : Char) (h : Filled size room (part :: parts)) :
    Filled size (room + 1) ((c :: part) :: parts) := by
  cases parts with
  | nil => exact Nat.succ_le_succ h
  | cons q parts => exact ⟨congrArg (· + 1) h.1, h.2⟩

theorem filled_chunksFrom (hsize : 0 < size) (room : Nat) (s : Text) :
    Filled size room (chunksFrom size room s) := by
  fun_induction chunksFrom size room s with
  | case1 room => exact Nat.zero_le room
  | case2 c s hnil ih =>
    rw [hnil] at ih
    exact ih.elim
  | case3 c s part parts hparts ih =>
    rw [hparts] at ih
    have hnext := ih.cons c
    rw [Nat.sub_add_cancel hsize] at hnext
    exact ⟨rfl, List.cons_ne_nil c part, hnext⟩
  | case4 room c s hnil ih =>
    rw [hnil] at ih
    exact ih.elim
  | case5 room c s part parts hparts ih =>
    rw [hparts] at ih
    exact ih.cons c

theorem flatten_chunksFrom (size room : Nat) (s : Text) : (chunksFrom size room s).flatten = s := by
  fun_induction chunksFrom size room s with
  | case1 room => rfl
  | case2 c s hnil ih =>
    rw [hnil] at ih
    simp [← ih]
  | case3 c s part parts hparts ih =>
    rw [hparts] at ih
    simp [← ih]
  | case4 room c s hnil ih =>
    rw [hnil] at ih
    simp [← ih]
  | case5 room c s part parts hparts ih =>
    rw [hparts] at ih
    simp [← ih]

namespace Filled

theorem full (h : Filled size size parts) : ∀ p ∈ parts.dropLast, p.length = size := by
  induction parts with
  | nil => exact h.elim
  | cons p parts ih =>
    cases parts with
    | nil =>
      intro q hq
      cases hq
    | cons q parts =>
      intro r hr
      rw [List.dropLast_cons_cons] at hr
      rcases List.mem_cons.1 hr with rfl | hr
      · exact h.1
      · exact ih h.2.2 r hr

theorem last (h : Filled size size parts) : ∀ p ∈ parts.getLast?, p.length ≤ size := by
  induction parts with
  | nil => exact h.elim
  | cons p parts ih =>
    cases parts with
    | nil =>
      intro q hq
      obtain rfl : p = q := Option.some.inj hq
      exact h
    | cons q parts =>
      rw [List.getLast?_cons_cons]
      exact ih h.2.2

/-- No part is empty but a first one without characters. -/
theorem nil_notMem (h : Filled size size parts) (hsize : 0 < size) (hne : parts ≠ [[]]) :
    [] ∉ parts := by
  induction parts with
  | nil => exact h.elim
  | cons p parts ih =>
    cases parts with
    | nil =>
      intro hp
      obtain rfl := List.mem_singleton.1 hp
      exact hne rfl
    | cons q parts =>
      obtain ⟨hlen, hq, hrest⟩ := h
      rw [List.mem_cons, not_or]
      constructor
      · rintro rfl
        rw [List.length_nil] at hlen
        omega
      · apply ih hrest
        intro he
        exact hq (List.cons.inj he).1

end Filled

theorem piecesOf_chunks (hsize : 0 < size) (w : Text) : PiecesOf size w (chunks size w) := by
  have hfilled := filled_chunksFrom hsize size w
  have hflatten := flatten_chunksFrom size size w
  refine ⟨hflatten, hfilled.full, hfilled.last, ?_⟩
  intro hw
  apply hfilled.nil_notMem hsize
  intro he
  rw [he] at hflatten
  exact hw hflatten.symm

/-! ## Parts between delimiters -/

/-- The parts of a text between delimiters, for a limit. -/
structure PartsOf (delimiter w : Text) (limit : Option Int) (parts : List Text) : Prop where
  joined : (∀ n ∈ limit, 0 ≤ n) → joinWith delimiter parts = w
  few : ∀ n ∈ limit, 0 < n → (parts.length : Int) ≤ n
  all : limit = none → parts = splitAll delimiter w
  free : limit = none → ∀ p ∈ parts, contains delimiter p = false
  fewer : ∀ k : Nat, 0 < k → limit = some (-(k : Int)) → parts = (splitAll delimiter w).rdrop k

theorem partsOf_splitText {delimiter : Text} (hne : delimiter ≠ []) (limit : Option Int)
    (w : Text) : PartsOf delimiter w limit (splitText delimiter limit w) := by
  unfold splitText
  rw [if_neg hne]
  cases limit with
  | none =>
    refine ⟨fun _ => joinWith_split _ delimiter w, ?_, fun _ => rfl,
      fun _ => not_contains_of_mem_splitAll hne, ?_⟩
    · intro n hn
      cases hn
    · intro k _ hk
      cases hk
  | some n =>
    refine ⟨?_, ?_, ?_, ?_, ?_⟩
    · intro h
      have hn : 0 ≤ n := h n rfl
      dsimp only
      split
      · exact joinWith_split _ delimiter w
      · rw [if_neg (by omega), joinWith_singleton]
    · intro m hm hpos
      obtain rfl : n = m := Option.some.inj hm
      have hlen := length_split (n.toNat - 1) delimiter w
      dsimp only
      rw [if_pos hpos]
      omega
    · intro h
      cases h
    · intro h
      cases h
    · intro k hk hn
      obtain rfl : n = -k := Option.some.inj hn
      have hcut : ((splitAll delimiter w).length + -(k : Int)).toNat =
          (splitAll delimiter w).length - k := by omega
      dsimp only
      rw [if_neg (by omega), if_pos (by omega), upTo, if_pos (by omega), hcut, List.rdrop]

/-! ## Calls -/

/-- The size of the pieces for a limit. -/
def pieceSize : Option Int → Nat
  | some n => if 0 < n then n.toNat else 1
  | none => 1

/-- A step calls `split` with a delimiter and a limit, which is read from the head of an argument or
left out. -/
structure Splits (scope : Scope) (step delimiter : Text) (limit : Option Int) : Prop where
  name_eq : (readCall step).1 = "split"
  delimiter_eq : (Arguments.at? ⟨(readCall step).2, scope⟩ 0).getD [] = delimiter
  limit_eq : (Arguments.at? ⟨(readCall step).2, scope⟩ 1).elim (.ok none)
    (fun s => (wholeOf s).map some) = .ok limit

variable {scope : Scope} {step delimiter : Text} {limit : Option Int}

theorem pieceSize_pos (limit : Option Int) : 0 < pieceSize limit := by
  unfold pieceSize
  split
  · split <;> omega
  · decide

theorem Splits.applyStep [Host] (h : Splits scope step delimiter limit) (v : Datum) :
    applyStep scope v step =
      if delimiter ≠ [] ∧ limit.any (maxLimit < ·) then .error .limit
      else .ok (.list (splitText delimiter limit v.first)) := by
  have hcalls : Calls scope step "split" (Arguments.asList ⟨(readCall step).2, scope⟩) :=
    ⟨h.name_eq, rfl⟩
  have hfilter : splitFilter v ⟨(readCall step).2, scope⟩ =
      if delimiter ≠ [] ∧ limit.any (maxLimit < ·) then .error (.notWhole .limit)
      else .ok (.list (splitText delimiter limit v.first)) := by
    unfold splitFilter
    rw [h.delimiter_eq, h.limit_eq]
    rfl
  rw [hcalls.applyStep rfl, applyFilter, hfilter]
  by_cases hbeyond : delimiter ≠ [] ∧ limit.any (maxLimit < ·)
  · rw [if_pos hbeyond, if_pos hbeyond]
  · rw [if_neg hbeyond, if_neg hbeyond]

/-- There is a split at every delimiter that lacks one of the two quotes, without limit. -/
theorem splits_callText (hv : ∀ name ∈ Pairs.keys scope.vars, name.any isQuoteMark = false)
    (a : Argument) : Splits scope (callText "split" (listText [a])) a.text none := by
  have hword : ∀ c ∈ ("split" : Text), isAsciiWord c = true := forall_mem_of_all (by decide)
  have hcalls := calls_callText (by decide) hword hv [a]
  refine ⟨hcalls.name_eq, ?_, ?_⟩
  · rw [hcalls.at?]
    rfl
  · rw [hcalls.at?]
    rfl

/-- There is one with every limit, too. -/
theorem splits_callText_limit (hv : ∀ name ∈ Pairs.keys scope.vars, name.any isQuoteMark = false)
    (a : Argument) {b : Argument} {n : Int} (hb : b.text = intText n)
    (hn : (natText n.natAbs).length ≤ maxDigits) :
    Splits scope (callText "split" (listText [a, b])) a.text (some n) := by
  have hword : ∀ c ∈ ("split" : Text), isAsciiWord c = true := forall_mem_of_all (by decide)
  have hcalls := calls_callText (by decide) hword hv [a, b]
  refine ⟨hcalls.name_eq, ?_, ?_⟩
  · rw [hcalls.at?]
    rfl
  · rw [hcalls.at?, List.map_cons, List.map_cons, List.getElem?_cons_succ, List.getElem?_cons_zero,
      hb, Option.elim_some, wholeOf_intText hn]
    rfl

/-- **No text is lost.** With a delimiter and a limit that is not too great, a step gives the parts
of the text; beyond the greatest limit it ends the conversion. With an empty delimiter it gives the
pieces of the size of the limit, whatever that is. -/
theorem split_parts [Host] (h : Splits scope step delimiter limit) (v : Datum) :
    (delimiter ≠ [] → (∀ n ∈ limit, n ≤ maxLimit) →
      ∃ parts, applyStep scope v step = .ok (.list parts) ∧
        PartsOf delimiter v.first limit parts) ∧
    (delimiter ≠ [] → (∃ n ∈ limit, maxLimit < n) → applyStep scope v step = .error .limit) ∧
    (delimiter = [] → ∃ pieces, applyStep scope v step = .ok (.list pieces) ∧
      PiecesOf (pieceSize limit) v.first pieces) := by
  refine ⟨?_, ?_, ?_⟩
  · intro hne hlimit
    have hnot : ¬ (delimiter ≠ [] ∧ limit.any (maxLimit < ·)) := by
      rintro ⟨-, hany⟩
      rw [Option.any_eq_true] at hany
      obtain ⟨n, hn, hlt⟩ := hany
      have hle := hlimit n hn
      have := of_decide_eq_true hlt
      omega
    refine ⟨_, ?_, partsOf_splitText hne limit v.first⟩
    rw [h.applyStep, if_neg hnot]
  · rintro hne ⟨n, hn, hlt⟩
    have hany : limit.any (maxLimit < ·) :=
      (Option.any_eq_true _ _).2 ⟨n, hn, decide_eq_true hlt⟩
    rw [h.applyStep, if_pos ⟨hne, hany⟩]
  · intro hnil
    have hnot : ¬ (delimiter ≠ [] ∧ limit.any (maxLimit < ·)) := fun hand => hand.1 hnil
    have htext : splitText delimiter limit v.first = chunks (pieceSize limit) v.first := by
      unfold splitText
      rw [if_pos hnil]
      rfl
    refine ⟨_, ?_, piecesOf_chunks (pieceSize_pos limit) v.first⟩
    rw [h.applyStep, if_neg hnot, htext]

theorem split_parts_overlapping :
    let scope : Scope := ⟨[], []⟩
    Splits scope "split('aa', 2)" "aa" (some 2) ∧
      (∃ parts, applyStep scope (.text "baaaaab") "split('aa', 2)" = .ok (.list parts) ∧
        PartsOf "aa" "baaaaab" (some 2) parts) ∧
      Splits scope "split('aa', -1)" "aa" (some (-1)) ∧
      (∃ parts, applyStep scope (.text "baaaaab") "split('aa', -1)" = .ok (.list parts) ∧
        PartsOf "aa" "baaaaab" (some (-1)) parts) ∧
      Splits scope "split('', 3)" [] (some 3) ∧
      (∃ pieces, applyStep scope (.text "baaaaab") "split('', 3)" = .ok (.list pieces) ∧
        PiecesOf 3 "baaaaab" pieces) := by
  intro scope
  have htwo : Splits scope "split('aa', 2)" "aa" (some 2) := ⟨by decide, by decide, by decide⟩
  have hback : Splits scope "split('aa', -1)" "aa" (some (-1)) :=
    ⟨by decide, by decide, by decide⟩
  have hpieces : Splits scope "split('', 3)" [] (some 3) := ⟨by decide, by decide, by decide⟩
  exact ⟨htwo, (split_parts htwo (.text "baaaaab")).1 (by decide) (by decide), hback,
    (split_parts hback (.text "baaaaab")).1 (by decide) (by decide), hpieces,
    (split_parts hpieces (.text "baaaaab")).2.2 rfl⟩

/-- A limit beyond the greatest one ends the conversion, although the text has two parts. -/
theorem split_beyond :
    Splits ⟨[], []⟩ "split(';', 9223372036854775809)" ";" (some 9223372036854775809) ∧
      ¬ ∃ parts, applyStep ⟨[], []⟩ (.text "a;b") "split(';', 9223372036854775809)" =
        .ok (.list parts) := by
  have herror : applyStep ⟨[], []⟩ (.text "a;b") "split(';', 9223372036854775809)" =
      .error .limit := by decide
  refine ⟨⟨by decide, by decide, by decide⟩, ?_⟩
  rw [herror]
  rintro ⟨parts, h⟩
  cases h

end Filter
end Crosswalk
