import Crosswalk.Mapping.Lines
import Crosswalk.Proofs.Text.Outside

/-!
# Where a line is cut

A line `source = destination` is cut twice: a pattern is cut off at the first `~` outside quotes,
and what stands before it is cut at its last `=` outside quotes. Behind a source whose quotes are
paired both scans start afresh, so the line is cut at the mark that it was written with if and only
if none follows before the pattern (`Unassigned`):

    splitLine (p ++ " = " ++ d) = some ⟨p, d, false⟩ ↔ Unassigned d              (splitLine_written)

The source may hold the mark as often as it likes, in quotes or not. A destination alone is a line
without the mark, under the same condition.
-/

namespace Crosswalk

open Text

/-- A source as it stands in a line: trimmed, with paired quotes and without `~` outside of them, so
that it does not start with one. -/
structure IsSource (p : Text) : Prop where
  ne : p ≠ []
  trimmed : trim p = p
  sealed : Sealed '~' p

/-- Before the pattern no `=` stands outside quotes. -/
def Unassigned (d : Text) : Prop := '=' ∉ Quote.outside none (splitPattern d).1

instance (d : Text) : Decidable (Unassigned d) :=
  inferInstanceAs (Decidable ('=' ∉ Quote.outside none (splitPattern d).1))

variable {s t p d : Text}

/-! ## The two scans -/

/-- Behind a sealed text a pattern is cut off where it is cut off without it. -/
theorem splitPattern_append (hs : Sealed '~' s) (t : Text) :
    splitPattern (s ++ t) = (s ++ (splitPattern t).1, (splitPattern t).2) := by
  have hnone : cutOutside? '~' s = none := (cutOutside?_eq_none_iff (by decide)).2 hs.2
  unfold splitPattern
  rw [cutOutside?_append hnone hs.1]
  cases cutOutside? '~' t <;> rfl

theorem sealed_equals : Sealed '~' ['='] := ⟨by decide, by decide⟩

theorem sealed_blank : Sealed '~' [' '] := ⟨by decide, by decide⟩

theorem splitPattern_cons {c : Char} (hc : Sealed '~' [c]) (t : Text) :
    splitPattern (c :: t) = (c :: (splitPattern t).1, (splitPattern t).2) :=
  splitPattern_append hc t

theorem unassigned_blank : Unassigned (' ' :: d) ↔ Unassigned d := by
  unfold Unassigned
  rw [splitPattern_cons sealed_blank, outside_cons (by decide), List.mem_cons, not_or]
  exact and_iff_right (by decide)

/-- A sealed text does not start with the mark of a line without source. -/
theorem startsWith_noSource_append (hs : Sealed '~' s) (hne : s ≠ []) (t : Text) :
    startsWith noSource (s ++ t) = false := by
  obtain ⟨c, u, rfl⟩ := List.exists_cons_of_ne_nil hne
  have hc : '~' ≠ c := by
    rintro rfl
    exact hs.2 (by rw [outside_cons (by decide)]; exact List.mem_cons_self)
  simp [startsWith, noSource, after?, hc]

/-! ## Cutting a line -/

theorem splitLine_trim (s : Text) : splitLine (trim s) = splitLine s := by
  have htrim : trim (trim s) = trim s := (trimmed_trimOf isBlank s).trimOf_eq
  unfold splitLine
  rw [htrim]

/-- The line is cut at the last mark before its pattern. -/
theorem splitLine_of_cut {a b : Text} (htrim : trim s = s) (hstart : startsWith noSource s = false)
    (hcut : cutLastOutside? '=' (splitPattern s).1 = some (a, b)) :
    splitLine s = some ⟨trim a, trim (s.drop (a.length + 1)), false⟩ := by
  unfold splitLine
  simp only [htrim, hstart, hcut, Bool.false_eq_true, if_false]

/-- A mark behind a sealed text is the last one when none follows. -/
theorem splitLine_append (hs : Sealed '~' s) (ht : Unassigned t)
    (htrim : trim (s ++ '=' :: t) = s ++ '=' :: t) :
    splitLine (s ++ '=' :: t) = some ⟨trim s, trim t, false⟩ := by
  have hstart : startsWith noSource (s ++ '=' :: t) = false := by
    rw [List.append_cons]
    exact startsWith_noSource_append (hs.append sealed_equals) (by simp) t
  have hhead : (splitPattern (s ++ '=' :: t)).1 = s ++ '=' :: (splitPattern t).1 := by
    rw [splitPattern_append hs, splitPattern_cons sealed_equals]
  have hlast : cutLastOutside? '=' (splitPattern t).1 = none :=
    (cutLastOutside?_eq_none_iff (by decide)).2 ht
  have hcut : cutLastOutside? '=' (splitPattern (s ++ '=' :: t)).1 =
      some (s, (splitPattern t).1) := by
    rw [hhead]
    exact cutLastOutsideFrom?_append (by decide) hs.1 hlast
  have hdrop : (s ++ '=' :: t).drop (s.length + 1) = t := by simp
  rw [splitLine_of_cut htrim hstart hcut, hdrop]

/-- A line without the mark is a destination. -/
theorem splitLine_alone (htrim : trim d = d) (hstart : startsWith noSource d = false)
    (h : Unassigned d) : splitLine d = some ⟨noSource, d, true⟩ := by
  have hnone : cutLastOutside? '=' (splitPattern d).1 = none :=
    (cutLastOutside?_eq_none_iff (by decide)).2 h
  unfold splitLine
  simp only [htrim, hstart, hnone, Bool.false_eq_true, if_false]

theorem exists_cut (h : ¬ Unassigned d) :
    ∃ a b, cutLastOutside? '=' (splitPattern d).1 = some (a, b) := by
  cases hcut : cutLastOutside? '=' (splitPattern d).1 with
  | some q => exact ⟨q.1, q.2, rfl⟩
  | none => exact absurd ((cutLastOutside?_eq_none_iff (by decide)).1 hcut) h

/-! ## Lines with a source -/

theorem IsSource.trimmed_blank (hp : IsSource p) : Trimmed isBlank p := by
  rw [← hp.trimmed]
  exact trimmed_trimOf isBlank p

theorem IsSource.trim_line (hp : IsSource p) (hd : trim d = d) (hne : d ≠ []) :
    trim (p ++ [' ', '=', ' '] ++ d) = p ++ [' ', '=', ' '] ++ d := by
  have hd' : Trimmed isBlank d := by
    rw [← hd]
    exact trimmed_trimOf isBlank d
  exact (hp.trimmed_blank.append hp.ne hd' hne [' ', '=', ' ']).trimOf_eq

/-- The line is cut at the mark that it was written with when none follows before the pattern. -/
theorem splitLine_sourced (hp : IsSource p) (hd : trim d = d) (hne : d ≠ []) (h : Unassigned d) :
    splitLine (p ++ [' ', '=', ' '] ++ d) = some ⟨p, d, false⟩ := by
  have hline : p ++ [' ', '=', ' '] ++ d = (p ++ [' ']) ++ '=' :: ' ' :: d := by simp
  have htrim := hp.trim_line hd hne
  rw [hline] at htrim ⊢
  rw [splitLine_append (hp.sealed.append sealed_blank) (unassigned_blank.2 h) htrim,
    trim_append_blank, trim_blank_cons, hp.trimmed, hd]

/-- Otherwise a part of the destination is read as a part of the source. -/
theorem splitLine_longer (hp : IsSource p) (hd : trim d = d) (hne : d ≠ []) (h : ¬ Unassigned d) :
    ∃ more b, splitLine (p ++ [' ', '=', ' '] ++ d) = some ⟨p ++ ' ' :: '=' :: more, b, false⟩ := by
  obtain ⟨a, b, hcut⟩ := exists_cut h
  have hlead : Sealed '~' (p ++ [' ', '=', ' ']) := hp.sealed.append ⟨by decide, by decide⟩
  have hstart : startsWith noSource (p ++ [' ', '=', ' '] ++ d) = false :=
    startsWith_noSource_append hlead (by simp) d
  have hlater : cutLastOutside? '=' (splitPattern (p ++ [' ', '=', ' '] ++ d)).1 =
      some (p ++ [' ', '=', ' '] ++ a, b) := by
    rw [splitPattern_append hlead]
    refine cutLastOutsideFrom?_append_left ?_
    rw [hlead.1]
    exact hcut
  -- Trimming leaves the mark in the source, as it is no blank.
  have hmark : Trimmed isBlank (p ++ [' ', '=']) := by
    have hequals : Trimmed isBlank ['='] := .of_forall (forall_mem_of_all (by decide))
    simpa using hp.trimmed_blank.append hp.ne hequals (by decide) [' ']
  have hsource : trim (p ++ [' ', '=', ' '] ++ a) = p ++ ' ' :: '=' :: trimEnd (' ' :: a) := by
    have htext : p ++ [' ', '=', ' '] ++ a = (p ++ [' ', '=']) ++ ' ' :: a := by simp
    rw [htext, trim_append hmark (by simp)]
    simp
  have hsplit := splitLine_of_cut (hp.trim_line hd hne) hstart hlater
  rw [hsource] at hsplit
  exact ⟨_, _, hsplit⟩

/-- **A line is cut where it was written.** A source and a destination come back from the line of
both, and a destination from the line of it alone, if and only if the destination has no `=` outside
quotes before its pattern. -/
theorem splitLine_written :
    (∀ p d, IsSource p → trim d = d → d ≠ [] →
      (splitLine (p ++ [' ', '=', ' '] ++ d) = some ⟨p, d, false⟩ ↔ Unassigned d)) ∧
    ∀ d, trim d = d → startsWith noSource d = false →
      (splitLine d = some ⟨noSource, d, true⟩ ↔ Unassigned d) := by
  constructor
  · intro p d hp hd hne
    refine ⟨fun h => ?_, splitLine_sourced hp hd hne⟩
    by_contra hassigned
    obtain ⟨more, b, hlonger⟩ := splitLine_longer hp hd hne hassigned
    rw [hlonger] at h
    have hsource : p ++ ' ' :: '=' :: more = p := congrArg Line.source (Option.some.inj h)
    simp at hsource
  · intro d hd hstart
    refine ⟨fun h => ?_, splitLine_alone hd hstart⟩
    by_contra hassigned
    obtain ⟨a, b, hcut⟩ := exists_cut hassigned
    rw [splitLine_of_cut hd hstart hcut] at h
    have halone : false = true := congrArg Line.alone (Option.some.inj h)
    cases halone

/-- The marks stand in the source, in its quotes, and in a pattern that leaves a quote open. -/
theorem splitLine_written_predicates :
    let p : Text := "/r/f[@tag='200=~']/s[.=1]"
    let d : Text := "dcterms:title @fra ~ a = 'b ~ c"
    IsSource p ∧ trim d = d ∧ d ≠ [] ∧ startsWith noSource d = false ∧ Unassigned d ∧
      splitLine (p ++ [' ', '=', ' '] ++ d) = some ⟨p, d, false⟩ ∧
      splitLine d = some ⟨noSource, d, true⟩ := by
  intro p d
  have hp : IsSource p := ⟨by decide, by decide, by decide, by decide⟩
  have hd : trim d = d := by decide
  have hne : d ≠ [] := by decide
  have hstart : startsWith noSource d = false := by decide
  have hassigned : Unassigned d := by decide
  exact ⟨hp, hd, hne, hstart, hassigned, (splitLine_written.1 p d hp hd hne).2 hassigned,
    (splitLine_written.2 d hd hstart).2 hassigned⟩

end Crosswalk
