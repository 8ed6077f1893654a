import Crosswalk.Filter.Pipeline
import Crosswalk.Proofs.Text.Blank

/-!
# Steps that do nothing

A word is a chain of one step. When it names no filter and no variable, the chain gives nothing:

    isFilter name = false → get? name scope.vars = none → evaluate scope name = .ok []
                                                                               (evaluate_unknown)
-/

namespace Crosswalk

open Text

namespace Filter

/-- A character that no scan of a chain stops at. -/
def isPlain (c : Char) : Bool :=
  c != '|' && !isQuoteMark c && !Depth.isOpening c && !Depth.isClosing c

/-- A class of characters is plain when none of the others belongs to it. -/
theorem isPlain_of {p : Char → Bool}
    (hp : ∀ c ∈ ['|', '\'', '"', '(', '{', ')', '}'], p c = false) {c : Char} (hc : p c = true) :
    isPlain c = true := by
  cases hplain : isPlain c with
  | true => rfl
  | false =>
    simp only [isPlain, isQuoteMark, Depth.isOpening, Depth.isClosing, Bool.and_eq_false_iff,
      bne_eq_false_iff_eq, Bool.not_eq_false', Bool.or_eq_true, beq_iff_eq] at hplain
    have hmem : c ∈ ['|', '\'', '"', '(', '{', ')', '}'] := by
      simpa only [List.mem_cons, List.not_mem_nil, or_false, or_assoc] using hplain
    rw [hp c hmem] at hc
    cases hc

theorem isPlain_of_isWord {c : Char} (h : isWord c = true) : isPlain c = true :=
  isPlain_of (forall_mem_of_all (by decide)) h

theorem isPlain_of_isBlank {c : Char} (h : isBlank c = true) : isPlain c = true :=
  isPlain_of (forall_mem_of_all (by decide)) h

theorem Depth.step_plain {d : Depth} (hd : d.quote = none) {c : Char} (hc : isPlain c = true) :
    d.step c = d := by
  simp only [isPlain, Bool.and_eq_true, Bool.not_eq_true'] at hc
  obtain ⟨⟨⟨-, hquote⟩, hopening⟩, hclosing⟩ := hc
  simp [Depth.step, hd, hquote, hopening, hclosing]

theorem ne_bar_of_isPlain {c : Char} (hc : isPlain c = true) : c ≠ '|' := by
  rintro rfl
  cases hc

/-- A plain text is one part. -/
theorem cutBars_plain {s : Text} (h : ∀ c ∈ s, isPlain c = true) : cutBars .outside s = [s] := by
  induction s with
  | nil => rfl
  | cons c s ih =>
    have hc := h c List.mem_cons_self
    rw [cutBars, if_neg fun hb => ne_bar_of_isPlain hc hb.2, Depth.step_plain rfl hc,
      ih fun d hd => h d (List.mem_cons_of_mem c hd)]

theorem splitChain_word {s : Text} (hne : s ≠ []) (h : ∀ c ∈ s, isWord c = true) :
    splitChain s = [s] := by
  unfold splitChain
  rw [cutBars_plain fun c hc => isPlain_of_isWord (h c hc), List.map_singleton,
    trim_eq_self fun c hc => not_isBlank_of_isWord (h c hc)]
  simp [hne]

theorem readCall_word {s : Text} (h : ∀ c ∈ s, isWord c = true) : readCall s = (s, []) := by
  have htrim : trim s = s := trim_eq_self fun c hc => not_isBlank_of_isWord (h c hc)
  have hnone : readCall? s = none := by
    unfold readCall?
    simp only [htrim]
    split
    · next rest hrest =>
      have hm : '(' ∈ trimStart (s.dropWhile isAsciiWord) := by
        rw [hrest]
        exact List.mem_cons_self
      have hs : '(' ∈ s := (List.dropWhile_sublist _).subset ((List.dropWhile_sublist _).subset hm)
      exact absurd (h _ hs) (by decide)
    · rfl
  unfold readCall
  rw [hnone, htrim]
  rfl

/-- A word that names nothing gives nothing. -/
theorem evaluate_unknown [Host] {scope : Scope} {name : Text} (hne : name ≠ [])
    (hw : ∀ c ∈ name, isWord c = true) (hf : isFilter name = false)
    (hv : Pairs.get? name scope.vars = none) : evaluate scope name = .ok [] := by
  have hfind : find? name = none := Option.isSome_eq_false_iff.1 hf |> Option.isNone_iff_eq_none.1
  have hstep : applyStep scope (.text []) name = .ok (.text []) := by
    unfold applyStep
    simp only [readCall_word hw, hfind,
      trim_eq_self fun c hc => not_isBlank_of_isWord (hw c hc), hv]
  unfold evaluate runSteps
  rw [splitChain_word hne hw, List.foldlM_cons, hstep]
  rfl

end Filter
end Crosswalk
