import Crosswalk.Host.Bundled
import Crosswalk.Proofs.Filter.Step

/-!
# Joined chains

A text is closed when a scan that starts outside of quotes and brackets is outside again at its end.
A bar behind a closed text joins two chains, which are cut and run one after the other:

    Closed a → splitChain (a ++ '|' :: b) = splitChain a ++ splitChain b      (splitChain_append)

The steps of any chain, closed or not, are cut again where they are joined:

    splitChain (joinWith ['|'] (splitChain s)) = splitChain s                     (Steps.joined)

since only the last of them may be left open. `Passes d s e` says that a scan at `d` passes `s`
without a cut and is then at `e`; such texts may be put behind one another.
-/

namespace Crosswalk.Filter

open Text

/-! ## Where a scan stands -/

namespace Depth

/-- Where a scan stands after a text. -/
def after (d : Depth) (s : Text) : Depth := s.foldl step d

@[simp] theorem after_nil (d : Depth) : d.after [] = d := rfl

theorem after_cons (d : Depth) (c : Char) (s : Text) : d.after (c :: s) = (d.step c).after s := rfl

theorem after_append (d : Depth) (s t : Text) : d.after (s ++ t) = (d.after s).after t :=
  List.foldl_append

/-- What is open is a quote mark. -/
def Marked (d : Depth) : Prop := ∀ q ∈ d.quote, isQuoteMark q = true

theorem marked_outside : Marked .outside := fun _ hq => by cases hq

theorem Marked.step {d : Depth} (hd : d.Marked) (c : Char) : (d.step c).Marked := by
  have hquote : ∀ q ∈ Quote.step d.quote c, isQuoteMark q = true := by
    intro q hq
    unfold Quote.step at hq
    cases hopen : d.quote with
    | some p =>
      simp only [hopen, Option.mem_def, Option.ite_none_left_eq_some, Option.some.injEq] at hq
      exact hd q (hopen.trans (congrArg some hq.2))
    | none =>
      simp only [hopen, Option.mem_def, Option.ite_none_right_eq_some, Option.some.injEq] at hq
      exact hq.2 ▸ hq.1
  unfold Depth.step
  split
  · exact hquote
  · split
    · exact hd
    · split
      · exact hd
      · exact hd

theorem Marked.after {d : Depth} (hd : d.Marked) (s : Text) : (d.after s).Marked := by
  induction s generalizing d with
  | nil => exact hd
  | cons c s ih => exact ih (hd.step c)

/-- A blank changes nothing. -/
theorem Marked.step_blank {d : Depth} (hd : d.Marked) {c : Char} (hc : isBlank c = true) :
    d.step c = d := by
  have hplain := isPlain_of_isBlank hc
  obtain ⟨quote, count⟩ := d
  cases quote with
  | none => exact step_plain rfl hplain
  | some q =>
    have hne : c ≠ q := by
      rintro rfl
      have hquote := hd c rfl
      simp [isPlain, hquote] at hplain
    simp [Depth.step, Quote.step, hne]

theorem Marked.after_blank {d : Depth} (hd : d.Marked) {s : Text}
    (hs : ∀ c ∈ s, isBlank c = true) : d.after s = d := by
  induction s with
  | nil => rfl
  | cons c s ih =>
    rw [after_cons, hd.step_blank (hs c List.mem_cons_self)]
    exact ih fun e he => hs e (List.mem_cons_of_mem c he)

end Depth

/-- A text that leaves no quote and no bracket open. -/
def Closed (s : Text) : Prop := Depth.outside.after s = .outside

instance (s : Text) : Decidable (Closed s) := inferInstanceAs (Decidable (_ = _))

theorem Closed.trim {s : Text} (h : Closed s) : Closed (trim s) := by
  obtain ⟨a, b, ha, hb, hs⟩ := exists_eq_trimOf isBlank s
  unfold Closed at h
  rw [hs, Depth.after_append, Depth.after_append, Depth.marked_outside.after_blank ha,
    (Depth.marked_outside.after _).after_blank hb] at h
  exact h

/-! ## Cuts -/

variable {d e f : Depth} {s t : Text}

theorem cutBars_ne_nil (d : Depth) (s : Text) : cutBars d s ≠ [] := by
  cases s with
  | nil => simp [cutBars]
  | cons c s =>
    unfold cutBars
    split
    · simp
    · split <;> simp

theorem cutBars_bar (s : Text) : cutBars .outside ('|' :: s) = [] :: cutBars .outside s := by
  simp [cutBars]

theorem cutBars_cons {c : Char} (hc : ¬ (d = .outside ∧ c = '|')) {part : Text}
    {parts : List Text} (h : cutBars (d.step c) s = part :: parts) :
    cutBars d (c :: s) = (c :: part) :: parts := by
  rw [cutBars, if_neg hc, h]

/-- A bar is a cut where the scan is outside. -/
theorem cutBars_append_bar (h : d.after s = .outside) (t : Text) :
    cutBars d (s ++ '|' :: t) = cutBars d s ++ cutBars .outside t := by
  induction s generalizing d with
  | nil =>
    obtain rfl : d = .outside := h
    exact cutBars_bar t
  | cons c s ih =>
    by_cases hc : d = .outside ∧ c = '|'
    · obtain ⟨rfl, rfl⟩ := hc
      rw [List.cons_append, cutBars_bar, cutBars_bar, ih (d := .outside) h, List.cons_append]
    · obtain ⟨part, parts, hs⟩ := List.exists_cons_of_ne_nil (cutBars_ne_nil (d.step c) s)
      have happend : cutBars (d.step c) (s ++ '|' :: t) =
          part :: (parts ++ cutBars .outside t) := by
        rw [ih h, hs, List.cons_append]
      rw [List.cons_append, cutBars_cons hc happend, cutBars_cons hc hs, List.cons_append]

/-- A text has no cut when the scan is inside wherever a bar stands. -/
theorem cutBars_eq_singleton_iff :
    cutBars d s = [s] ↔ ∀ u v, s = u ++ '|' :: v → d.after u ≠ .outside := by
  constructor
  · rintro h u v rfl hu
    rw [cutBars_append_bar hu] at h
    have hlength := congrArg List.length h
    have hleft := List.length_pos_iff.2 (cutBars_ne_nil d u)
    have hright := List.length_pos_iff.2 (cutBars_ne_nil .outside v)
    rw [List.length_append, List.length_singleton] at hlength
    omega
  · intro h
    induction s generalizing d with
    | nil => rfl
    | cons c s ih =>
      have hc : ¬ (d = .outside ∧ c = '|') := by
        rintro ⟨rfl, rfl⟩
        exact h [] s rfl rfl
      refine cutBars_cons hc (ih fun u v hs => ?_)
      exact h (c :: u) v (by rw [hs, List.cons_append])

/-- A scan at `d` passes the text without a cut, and is then at `e`. -/
def Passes (d : Depth) (s : Text) (e : Depth) : Prop := cutBars d s = [s] ∧ d.after s = e

theorem passes_nil (d : Depth) : Passes d [] d := ⟨rfl, rfl⟩

theorem Passes.cons {c : Char} (hc : ¬ (d = .outside ∧ c = '|')) (h : Passes (d.step c) s e) :
    Passes d (c :: s) e :=
  ⟨cutBars_cons hc h.1, h.2⟩

theorem Passes.append (hs : Passes d s e) (ht : Passes e t f) : Passes d (s ++ t) f := by
  induction s generalizing d with
  | nil =>
    obtain rfl : d = e := hs.2
    exact ht
  | cons c s ih =>
    have hc : ¬ (d = .outside ∧ c = '|') := by
      rintro ⟨rfl, rfl⟩
      exact cutBars_eq_singleton_iff.1 hs.1 [] s rfl rfl
    refine Passes.cons hc (ih ⟨?_, hs.2⟩)
    refine cutBars_eq_singleton_iff.2 fun u v e => ?_
    exact cutBars_eq_singleton_iff.1 hs.1 (c :: u) v (by rw [e, List.cons_append])

/-- A text is cut nowhere, or first at a bar with the scan outside. -/
theorem cutBars_cases (d : Depth) (s : Text) :
    cutBars d s = [s] ∨ ∃ a b, s = a ++ '|' :: b ∧ Passes d a .outside := by
  induction s generalizing d with
  | nil => exact .inl rfl
  | cons c s ih =>
    by_cases hc : d = .outside ∧ c = '|'
    · obtain ⟨rfl, rfl⟩ := hc
      exact .inr ⟨[], s, rfl, passes_nil _⟩
    · rcases ih (d.step c) with hs | ⟨a, b, rfl, ha⟩
      · exact .inl (cutBars_cons hc hs)
      · exact .inr ⟨c :: a, b, rfl, ha.cons hc⟩

/-- Blanks at the ends of a text are no cuts, nor do they hide one. -/
theorem cutBars_trim (h : cutBars .outside s = [s]) : cutBars .outside (trim s) = [trim s] := by
  obtain ⟨a, b, ha, hb, hs⟩ := exists_eq_trimOf isBlank s
  have htrim : ∀ u v, trim s = u ++ '|' :: v → s = (a ++ u) ++ '|' :: (v ++ b) := by
    intro u v huv
    rw [show trimOf isBlank s = u ++ '|' :: v from huv] at hs
    rw [hs]
    simp only [List.append_assoc, List.cons_append]
  refine cutBars_eq_singleton_iff.2 fun u v huv => ?_
  have hinside := cutBars_eq_singleton_iff.1 h _ _ (htrim u v huv)
  rwa [Depth.after_append, Depth.marked_outside.after_blank ha] at hinside

/-! ## Steps -/

/-- **A bar behind a closed text** joins two chains. -/
theorem splitChain_append {a : Text} (ha : Closed a) (b : Text) :
    splitChain (a ++ '|' :: b) = splitChain a ++ splitChain b := by
  unfold splitChain
  rw [cutBars_append_bar ha, List.map_append, List.filter_append]

/-- A text without a cut is one step, unless it is blank. -/
theorem splitChain_uncut (h : cutBars .outside s = [s]) :
    splitChain s = if trim s = [] then [] else [trim s] := by
  unfold splitChain
  rw [h, List.map_singleton]
  by_cases hs : trim s = [] <;> simp [hs]

/-- A trimmed text that is cut nowhere. -/
structure IsStep (s : Text) : Prop where
  trimmed : trim s = s
  nonempty : s ≠ []
  uncut : cutBars .outside s = [s]

theorem IsStep.splitChain (h : IsStep s) : splitChain s = [s] := by
  rw [splitChain_uncut h.uncut, h.trimmed, if_neg h.nonempty]

theorem isStep_trim (h : cutBars .outside s = [s]) (hne : trim s ≠ []) : IsStep (trim s) where
  trimmed := (trimmed_trimOf isBlank s).trimOf_eq
  nonempty := hne
  uncut := cutBars_trim h

/-- Steps of a chain, of which only the last one may be left open. -/
inductive Steps : List Text → Prop where
  | nil : Steps []
  | last {p : Text} (hp : IsStep p) : Steps [p]
  | cons {p : Text} {ps : List Text} (hp : IsStep p) (hclosed : Closed p) (hps : Steps ps) :
      Steps (p :: ps)

theorem steps_splitChain (s : Text) : Steps (splitChain s) := by
  induction hn : s.length using Nat.strong_induction_on generalizing s with
  | _ n ih =>
    rcases cutBars_cases .outside s with hs | ⟨a, b, rfl, ha⟩
    · rw [splitChain_uncut hs]
      split
      · exact .nil
      · next hne => exact .last (isStep_trim hs hne)
    · have hclosed : Closed a := ha.2
      have hb : Steps (splitChain b) := by
        refine ih b.length ?_ b rfl
        rw [← hn, List.length_append, List.length_cons]
        omega
      rw [splitChain_append hclosed, splitChain_uncut ha.1]
      split
      · exact hb
      · next hne => exact .cons (isStep_trim ha.1 hne) hclosed.trim hb

theorem Steps.isStep {ps : List Text} (h : Steps ps) : ∀ p ∈ ps, IsStep p := by
  induction h with
  | nil => exact List.forall_mem_nil _
  | last hp => exact List.forall_mem_singleton.2 hp
  | cons hp _ _ ih => exact List.forall_mem_cons.2 ⟨hp, ih⟩

/-- Joined steps are cut where they are joined. -/
theorem Steps.joined {ps : List Text} (h : Steps ps) : splitChain (joinWith ['|'] ps) = ps := by
  induction h with
  | nil => rfl
  | last hp => rw [joinWith_singleton, hp.splitChain]
  | @cons p ps hp hclosed _ ih =>
    by_cases hne : ps = []
    · rw [hne, joinWith_singleton, hp.splitChain]
    · rw [joinWith_cons _ _ hne, List.append_assoc, List.singleton_append,
        splitChain_append hclosed, hp.splitChain, ih, List.singleton_append]

/-! ## Runs -/

theorem runSteps_append [Host] (scope : Scope) (v : Datum) (steps more : List Text) :
    runSteps scope v (steps ++ more) =
      runSteps scope v steps >>= fun w => runSteps scope w more :=
  List.foldlM_append

/-- **Joined chains** are cut one after the other, and the second one runs from the datum of the
first. Of every chain, closed or not, the steps are trimmed texts without a cut, which are cut again
where they are joined. -/
theorem evaluate_joined [Host] {a : Text} (ha : Closed a) (b : Text) :
    splitChain (a ++ '|' :: b) = splitChain a ++ splitChain b ∧
    (∀ scope, evaluate scope (a ++ '|' :: b) =
      runSteps scope (.text []) (splitChain a) >>= fun v =>
        (runSteps scope v (splitChain b)).map Datum.first) ∧
    ∀ s, splitChain (joinWith ['|'] (splitChain s)) = splitChain s ∧
      ∀ step ∈ splitChain s, trim step = step ∧ step ≠ [] ∧ splitChain step = [step] := by
  refine ⟨splitChain_append ha b, fun scope => ?_, fun s => ⟨(steps_splitChain s).joined, ?_⟩⟩
  · rw [evaluate, splitChain_append ha, runSteps_append]
    cases runSteps scope (.text []) (splitChain a) <;> rfl
  · intro step hstep
    have hp := (steps_splitChain s).isStep step hstep
    exact ⟨hp.trimmed, hp.nonempty, hp.splitChain⟩

/-- A bar between quotes joins nothing, and no bracket counts that closes what was not opened. -/
theorem evaluate_joined_quoted :
    Closed "a) | split('|', '(')" ∧
      splitChain "a) | split('|', '(')|last (" =
        [("a)" : Text), "split('|', '(')"] ++ [("last (" : Text)] ∧
      evaluate ⟨[("a", "x|y")], []⟩ "a | split('|')|last" = .ok "y" := by
  refine ⟨by decide, (evaluate_joined (a := "a) | split('|', '(')") (by decide) "last (").1, ?_⟩
  exact ((evaluate_joined (a := "a | split('|')") (by decide) "last").2.1 _).trans (by decide)

end Crosswalk.Filter
