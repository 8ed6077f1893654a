import Crosswalk.Text.Blank
import Crosswalk.Text.Word
import Mathlib.Data.List.TakeWhile

/-!
# Texts that are trimmed

A text is trimmed when it neither starts nor ends with a blank. Trimming gives the one trimmed text
that stands between blanks:

    trimOf p (a ++ s ++ b) = s        for `a` and `b` blank and `s` trimmed  (trimOf_surrounded)
    s = a ++ trimOf p s ++ b          for some blank `a` and `b`             (exists_eq_trimOf)

A word has no blanks at all.
-/

namespace Crosswalk.Text

/-! ## Texts that are written out -/

/-- A decision on each character of the text, and not on all characters. -/
theorem forall_mem_of_all {p : Char → Prop} [DecidablePred p] {s : Text}
    (h : (s.all fun c => decide (p c)) = true) : ∀ c ∈ s, p c := by
  intro c hc
  exact of_decide_eq_true (List.all_eq_true.1 h c hc)

/-! ## Words have no blanks -/

def blankCodes : List Nat :=
  [0x09, 0x0A, 0x0B, 0x0C, 0x0D, 0x1C, 0x1D, 0x1E, 0x1F, 0x20, 0x85, 0xA0, 0x1680, 0x2000, 0x2001,
    0x2002, 0x2003, 0x2004, 0x2005, 0x2006, 0x2007, 0x2008, 0x2009, 0x200A, 0x2028, 0x2029, 0x202F,
    0x205F, 0x3000]

theorem toNat_mem_blankCodes {c : Char} (h : isBlank c = true) : c.toNat ∈ blankCodes := by
  simp only [isBlank, Bool.or_eq_true, Bool.and_eq_true, decide_eq_true_eq, beq_iff_eq] at h
  simp only [blankCodes, List.mem_cons, List.not_mem_nil, or_false]
  omega

theorem not_isBlank_of_isWord {c : Char} (h : isWord c = true) : isBlank c = false := by
  cases hb : isBlank c with
  | false => rfl
  | true =>
    have hcodes : ∀ n ∈ blankCodes, isWord (Char.ofNat n) = false := by decide +kernel
    rw [← Char.ofNat_toNat c, hcodes _ (toNat_mem_blankCodes hb)] at h
    cases h

theorem not_isBlank_of_isAsciiLetter {c : Char} (h : isAsciiLetter c = true) : isBlank c = false :=
  not_isBlank_of_isWord (by simp [isWord, isAsciiWord, h])

/-! ## Ends -/

/-- Neither the first nor the last character is one of `p`. -/
def Trimmed (p : Char → Bool) (s : Text) : Prop :=
  (∀ c ∈ s.head?, p c = false) ∧ ∀ c ∈ s.getLast?, p c = false

theorem Trimmed.nil (p : Char → Bool) : Trimmed p [] := by simp [Trimmed]

theorem Trimmed.mono {p q : Char → Bool} (hpq : ∀ c, p c = false → q c = false) {s : Text}
    (h : Trimmed p s) : Trimmed q s :=
  ⟨fun c hc => hpq c (h.1 c hc), fun c hc => hpq c (h.2 c hc)⟩

theorem Trimmed.of_forall {p : Char → Bool} {s : Text} (h : ∀ c ∈ s, p c = false) :
    Trimmed p s :=
  ⟨fun c hc => h c (List.mem_of_head? hc), fun c hc => h c (List.mem_of_getLast? hc)⟩

theorem Trimmed.reverse {p : Char → Bool} {s : Text} (h : Trimmed p s) : Trimmed p s.reverse := by
  unfold Trimmed
  rw [List.head?_reverse, List.getLast?_reverse]
  exact ⟨h.2, h.1⟩

theorem dropWhile_of_head {p : Char → Bool} {s : Text} (h : ∀ c ∈ s.head?, p c = false) :
    s.dropWhile p = s := by
  cases s with
  | nil => rfl
  | cons c s => rw [List.dropWhile_cons_of_neg (by rw [h c rfl]; decide)]

theorem trimOf_surrounded {p : Char → Bool} {a s b : Text} (ha : ∀ c ∈ a, p c = true)
    (hs : Trimmed p s) (hb : ∀ c ∈ b, p c = true) : trimOf p (a ++ s ++ b) = s := by
  have hstart : trimStartOf p (a ++ s ++ b) = (s ++ b).dropWhile p := by
    rw [trimStartOf, List.append_assoc, List.dropWhile_append_of_pos ha]
  have hend : trimEndOf p (s ++ b) = s := by
    rw [trimEndOf, List.reverse_append,
      List.dropWhile_append_of_pos fun c hc => hb c (List.mem_reverse.1 hc),
      dropWhile_of_head hs.reverse.1, List.reverse_reverse]
  rw [trimOf, hstart]
  cases s with
  | nil =>
    rw [List.nil_append, ← List.append_nil b, List.dropWhile_append_of_pos hb]
    rfl
  | cons c s => rw [dropWhile_of_head (s := c :: s ++ b) hs.1, hend]

theorem Trimmed.trimOf_eq {p : Char → Bool} {s : Text} (h : Trimmed p s) : trimOf p s = s := by
  simpa using trimOf_surrounded (a := []) (b := []) (by simp) h (by simp)

/-- What trimming cuts off at the end of a text. -/
def blankEnd (p : Char → Bool) (s : Text) : Text := ((trimStartOf p s).reverse.takeWhile p).reverse

theorem trimOf_append_blankEnd (p : Char → Bool) (s : Text) :
    trimOf p s ++ blankEnd p s = s.dropWhile p := by
  rw [trimOf, trimEndOf, blankEnd, ← List.reverse_append, List.takeWhile_append_dropWhile,
    List.reverse_reverse, trimStartOf]

theorem exists_eq_trimOf (p : Char → Bool) (s : Text) :
    ∃ a b : Text, (∀ c ∈ a, p c = true) ∧ (∀ c ∈ b, p c = true) ∧ s = a ++ trimOf p s ++ b := by
  refine ⟨s.takeWhile p, blankEnd p s, ?_, ?_, ?_⟩
  · exact fun c hc => List.mem_takeWhile_imp hc
  · exact fun c hc => List.mem_takeWhile_imp (List.mem_reverse.1 hc)
  · rw [List.append_assoc, trimOf_append_blankEnd, List.takeWhile_append_dropWhile]

theorem mem_of_mem_trimOf {p : Char → Bool} {s : Text} {c : Char} (hc : c ∈ trimOf p s) : c ∈ s := by
  obtain ⟨a, b, -, -, hs⟩ := exists_eq_trimOf p s
  rw [hs]
  exact List.mem_append_left b (List.mem_append_right a hc)

theorem mem_trimOf_of_not {p : Char → Bool} {s : Text} {c : Char} (hc : c ∈ s)
    (hp : p c = false) : c ∈ trimOf p s := by
  obtain ⟨a, b, ha, hb, hs⟩ := exists_eq_trimOf p s
  rw [hs, List.mem_append, List.mem_append] at hc
  rcases hc with (hc | hc) | hc
  · exact absurd (ha c hc) (by simp [hp])
  · exact hc
  · exact absurd (hb c hc) (by simp [hp])

theorem head?_dropWhile (p : Char → Bool) (s : Text) :
    ∀ c ∈ (s.dropWhile p).head?, p c = false := by
  intro c hc
  have := List.head?_dropWhile_not p s
  rw [Option.mem_def.1 hc] at this
  simpa using this

theorem trimmed_trimOf (p : Char → Bool) (s : Text) : Trimmed p (trimOf p s) := by
  refine ⟨fun c hc => ?_, fun c hc => ?_⟩
  · refine head?_dropWhile p s c ?_
    rw [← trimOf_append_blankEnd, List.head?_append, Option.mem_def.1 hc]
    rfl
  · rw [trimOf, trimEndOf, List.getLast?_reverse] at hc
    exact head?_dropWhile p _ c hc

/-- Blanks around a text are trimmed with its own. -/
theorem trim_surrounded {a b : Text} (ha : ∀ c ∈ a, isBlank c = true) (s : Text)
    (hb : ∀ c ∈ b, isBlank c = true) : trim (a ++ s ++ b) = trim s := by
  obtain ⟨a', b', ha', hb', hs⟩ := exists_eq_trimOf isBlank s
  have hstart : ∀ c ∈ a ++ a', isBlank c = true := List.forall_mem_append.2 ⟨ha, ha'⟩
  have hend : ∀ c ∈ b' ++ b, isBlank c = true := List.forall_mem_append.2 ⟨hb', hb⟩
  calc trim (a ++ s ++ b) = trim (a ++ (a' ++ trim s ++ b') ++ b) :=
        congrArg (trim <| a ++ · ++ b) hs
    _ = trim ((a ++ a') ++ trim s ++ (b' ++ b)) := by simp only [List.append_assoc]
    _ = trim s := trimOf_surrounded hstart (trimmed_trimOf isBlank s) hend

theorem trim_append_blank (s : Text) : trim (s ++ [' ']) = trim s :=
  trim_surrounded (List.forall_mem_nil _) s (List.forall_mem_singleton.2 (by decide))

theorem trim_blank_cons (s : Text) : trim (' ' :: s) = trim s := by
  have hblank : ∀ c ∈ [' '], isBlank c = true := List.forall_mem_singleton.2 (by decide)
  have h := trim_surrounded hblank s (List.forall_mem_nil _)
  rwa [List.append_nil] at h

/-- A text that starts with no blank keeps its start. -/
theorem exists_trim_cons {c : Char} (hc : isBlank c = false) (s : Text) :
    ∃ t b, trim (c :: s) = c :: t ∧ s = t ++ b ∧ ∀ d ∈ b, isBlank d = true := by
  obtain ⟨a, b, ha, hb, hs⟩ := exists_eq_trimOf isBlank (c :: s)
  have hnot : ∀ u : Text, (∀ d ∈ u, isBlank d = true) → c ∉ u := fun u hu hcu => by
    rw [hu c hcu] at hc
    cases hc
  cases a with
  | cons d a =>
    obtain ⟨rfl, -⟩ := List.cons.inj hs
    exact absurd List.mem_cons_self (hnot _ ha)
  | nil =>
    cases htrim : trimOf isBlank (c :: s) with
    | nil =>
      rw [htrim] at hs
      have hmem : c ∈ [] ++ [] ++ b := by
        rw [← hs]
        exact List.mem_cons_self
      exact absurd hmem (hnot b hb)
    | cons d t =>
      rw [htrim] at hs
      obtain ⟨rfl, rfl⟩ := List.cons.inj hs
      exact ⟨t, b, htrim, rfl, hb⟩

theorem Trimmed.append {p : Char → Bool} {s t : Text} (hs : Trimmed p s) (hsne : s ≠ [])
    (ht : Trimmed p t) (htne : t ≠ []) (u : Text) : Trimmed p (s ++ u ++ t) := by
  constructor
  · obtain ⟨c, s, rfl⟩ := List.exists_cons_of_ne_nil hsne
    exact hs.1
  · rw [List.getLast?_append, List.getLast?_eq_some_getLast htne]
    have hlast := ht.2
    rwa [List.getLast?_eq_some_getLast htne] at hlast

/-! ## Nothing to trim -/

theorem trim_of_ends {s : Text} (hfirst : s.head?.all (fun c => !isBlank c) = true)
    (hlast : s.getLast?.all (fun c => !isBlank c) = true) : trim s = s := by
  refine Trimmed.trimOf_eq ⟨fun c hc => ?_, fun c hc => ?_⟩
  · rw [Option.mem_def.1 hc] at hfirst
    simpa using hfirst
  · rw [Option.mem_def.1 hc] at hlast
    simpa using hlast

theorem trim_eq_self {s : Text} (h : ∀ c ∈ s, isBlank c = false) : trim s = s :=
  (Trimmed.of_forall h).trimOf_eq

/-! ## Line ends -/

theorem unifyLines_cons {c : Char} (hc : c ≠ '\r') (s : Text) :
    unifyLines (c :: s) = c :: unifyLines s := by
  rw [unifyLines]
  exact hc

theorem unifyLines_return {s : Text} (h : s.head? ≠ some '\n') :
    unifyLines ('\r' :: s) = '\n' :: unifyLines s := by
  rw [unifyLines]
  rintro t rfl
  exact h rfl

theorem head?_unifyLines (c : Char) (s : Text) :
    (unifyLines (c :: s)).head? = some (if c = '\r' then '\n' else c) := by
  split
  · next hc =>
    subst hc
    by_cases h : s.head? = some '\n'
    · obtain ⟨t, rfl⟩ := List.head?_eq_some_iff.1 h
      rfl
    · rw [unifyLines_return h]
      rfl
  · next hc =>
    rw [unifyLines_cons hc]
    rfl

/-- A text may be cut in two, but not between a carriage return and its line feed. -/
theorem unifyLines_append {a b : Text} (h : a.getLast? = some '\r' → b.head? ≠ some '\n') :
    unifyLines (a ++ b) = unifyLines a ++ unifyLines b := by
  have hlast : ∀ c t, t.getLast? = some '\r' → (c :: t).getLast? = some '\r' := by
    intro c t ht
    rw [List.getLast?_cons, ht]
    rfl
  fun_induction unifyLines a with
  | case1 => rfl
  | case2 t ih =>
    have ht := ih fun hr => h (hlast _ _ (hlast _ _ hr))
    exact congrArg ('\n' :: ·) ht
  | case3 t hfeed ih =>
    have ht := ih fun hr => h (hlast _ _ hr)
    have hhead : (t ++ b).head? ≠ some '\n' := by
      cases t with
      | nil => exact h rfl
      | cons d t =>
        intro hd
        exact hfeed t (by rw [Option.some.inj hd])
    rw [List.cons_append, unifyLines_return hhead, ht]
    rfl
  | case4 c t hc ih =>
    have ht := ih fun hr => h (hlast _ _ hr)
    rw [List.cons_append, unifyLines_cons hc, ht]
    rfl

/-- Two texts behind one another are unified one by one, but for the line feed of a carriage return
at the end of the first one. -/
theorem exists_unifyLines_append (a b : Text) : ∃ v rest, unifyLines b = v ++ rest ∧
    unifyLines (a ++ b) = unifyLines a ++ rest ∧
      (v = [] ∨ v = ['\n'] ∧ a.getLast? = some '\r') := by
  by_cases hsplit : a.getLast? = some '\r' ∧ b.head? = some '\n'
  · obtain ⟨hlast, hhead⟩ := hsplit
    obtain ⟨a', rfl⟩ := List.getLast?_eq_some_iff.1 hlast
    obtain ⟨b', rfl⟩ := List.head?_eq_some_iff.1 hhead
    refine ⟨['\n'], unifyLines b', rfl, ?_, .inr ⟨rfl, hlast⟩⟩
    have hreturn : unifyLines (a' ++ ['\r']) = unifyLines a' ++ ['\n'] :=
      unifyLines_append fun _ h => by cases h
    have hboth : unifyLines (a' ++ '\r' :: '\n' :: b') = unifyLines a' ++ '\n' :: unifyLines b' :=
      unifyLines_append fun _ h => by cases h
    rw [hreturn, List.append_assoc, List.append_assoc]
    exact hboth
  · refine ⟨[], unifyLines b, rfl, unifyLines_append fun hlast hhead => hsplit ⟨hlast, hhead⟩,
      .inl rfl⟩

end Crosswalk.Text
