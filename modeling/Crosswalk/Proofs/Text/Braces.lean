import Crosswalk.Proofs.Text.Replace
import Crosswalk.Template.Placeholder

/-!
# Paired braces

A text between double braces whose own braces are balanced is known by where it starts: of two such
texts at the head of one text, neither can end inside the other.

    Paired x → Paired y → braced x ++ a = braced y ++ b → x = y               (braced_injective)

* `Bare s`: no brace stands in `s`.
* `level d s`: how many braces are open after `s`, where `d` are open before; none when one is
  closed that was not opened.
-/

namespace Crosswalk.Text

/-! ## Texts without braces -/

def isBrace (c : Char) : Bool := c == '{' || c == '}'

/-- A text without braces. -/
def Bare (s : Text) : Prop := s.all (fun c => !isBrace c) = true

instance (s : Text) : Decidable (Bare s) := inferInstanceAs (Decidable (_ = true))

theorem bare_nil : Bare [] := rfl

theorem bare_cons {c : Char} {s : Text} : Bare (c :: s) ↔ isBrace c = false ∧ Bare s := by
  simp [Bare]

theorem bare_append {a b : Text} : Bare (a ++ b) ↔ Bare a ∧ Bare b := by
  simp [Bare, List.all_append]

theorem bare_flatMap {α : Type} {f : α → Text} {l : List α} (h : ∀ x ∈ l, Bare (f x)) :
    Bare (l.flatMap f) := by
  induction l with
  | nil => exact bare_nil
  | cons x l ih =>
    rw [List.flatMap_cons, bare_append]
    exact ⟨h x List.mem_cons_self, ih fun y hy => h y (List.mem_cons_of_mem x hy)⟩

theorem Bare.not_mem {s : Text} (h : Bare s) {c : Char} (hc : isBrace c = true) : c ∉ s := by
  intro hs
  have := List.all_eq_true.1 h c hs
  rw [hc] at this
  cases this

/-! ## Balance -/

/-- The number of open braces after a text. -/
def level : Nat → Text → Option Nat
  | d, [] => some d
  | d, c :: s =>
    if c = '{' then level (d + 1) s
    else if c = '}' then if d = 0 then none else level (d - 1) s
    else level d s

/-- Every brace that is opened is closed. -/
def Paired (s : Text) : Prop := level 0 s = some 0

instance (s : Text) : Decidable (Paired s) := inferInstanceAs (Decidable (_ = _))

theorem level_append (d : Nat) (a b : Text) :
    level d (a ++ b) = (level d a).bind fun e => level e b := by
  induction a generalizing d with
  | nil => rfl
  | cons c a ih =>
    rw [List.cons_append, level, level]
    split
    · exact ih _
    · split
      · split
        · rfl
        · exact ih _
      · exact ih _

theorem level_bare (d : Nat) {s : Text} (h : Bare s) : level d s = some d := by
  induction s with
  | nil => rfl
  | cons c s ih =>
    obtain ⟨hc, hs⟩ := bare_cons.1 h
    simp only [isBrace, Bool.or_eq_false_iff, beq_eq_false_iff_ne] at hc
    rw [level, if_neg hc.1, if_neg hc.2, ih hs]

theorem level_add {d e : Nat} (k : Nat) {s : Text} (h : level d s = some e) :
    level (d + k) s = some (e + k) := by
  induction s generalizing d with
  | nil =>
    rw [level] at h ⊢
    rw [Option.some.inj h]
  | cons c s ih =>
    rw [level] at h ⊢
    split
    · next hc =>
      rw [if_pos hc] at h
      have := ih h
      rwa [Nat.add_right_comm] at this
    · next hc =>
      rw [if_neg hc] at h
      split
      · next hd =>
        rw [if_pos hd] at h
        by_cases h0 : d = 0
        · rw [if_pos h0] at h
          cases h
        · rw [if_neg h0] at h
          rw [if_neg (by omega), show d + k - 1 = d - 1 + k by omega]
          exact ih h
      · next hd =>
        rw [if_neg hd] at h
        exact ih h

theorem Bare.paired {s : Text} (h : Bare s) : Paired s := level_bare 0 h

theorem Paired.level {s : Text} (h : Paired s) (d : Nat) : level d s = some d := by
  have := level_add d h
  rwa [Nat.zero_add] at this

/-- A balanced text does not close what was opened before it. -/
theorem not_paired_close {a b : Text} (ha : Paired a) : ¬ Paired (a ++ '}' :: b) := by
  intro h
  unfold Paired at h
  rw [level_append, ha.level 0] at h
  cases h

/-! ## Between double braces -/

/-- A text between double braces. -/
def braced (x : Text) : Text := '{' :: '{' :: (x ++ ['}', '}'])

theorem braced_ne_nil (x : Text) : braced x ≠ [] := by
  unfold braced
  exact List.cons_ne_nil _ _

theorem length_braced (x : Text) : (braced x).length = x.length + 4 := by
  simp [braced]

theorem startsWith_open_of_braced {x s : Text} (h : startsWith (braced x) s = true) :
    startsWith Template.openMark s = true :=
  startsWith_of_append (a := Template.openMark) (b := x ++ ['}', '}']) h

theorem braced_injective {x y a b : Text} (hx : Paired x) (hy : Paired y)
    (h : braced x ++ a = braced y ++ b) : x = y := by
  have h' : x ++ '}' :: '}' :: a = y ++ '}' :: '}' :: b := by simpa [braced] using h
  rcases List.append_eq_append_iff.1 h' with ⟨u, hu, hv⟩ | ⟨u, hu, hv⟩
  · cases u with
    | nil => simpa using hu.symm
    | cons c u =>
      obtain ⟨rfl, _⟩ := List.cons.inj hv
      exact absurd hy (hu ▸ not_paired_close hx)
  · cases u with
    | nil => simpa using hu
    | cons c u =>
      obtain ⟨rfl, _⟩ := List.cons.inj hv
      exact absurd hx (hu ▸ not_paired_close hy)

/-- Of two texts between double braces, one starts where the other does only if they are equal. -/
theorem startsWith_braced {x y rest : Text} (hx : Paired x) (hy : Paired y) (hne : x ≠ y) :
    startsWith (braced x) (braced y ++ rest) = false := by
  cases h : startsWith (braced x) (braced y ++ rest) with
  | false => rfl
  | true =>
    obtain ⟨t, ht⟩ := startsWith_iff.1 h
    exact absurd (braced_injective hy hx ht).symm hne

/-! ## Where double braces open -/

/-- A doubled character starts in `s` only if it is in `s`, when `s` does not end in a character
that the next one could double. -/
theorem quiet_double {d : Char} {s : Text} (h : contains [d, d] (s ++ [d]) = false)
    (rest : Text) : Quiet (startsWith [d, d]) s rest := by
  induction s with
  | nil => exact trivial
  | cons c s ih =>
    rw [List.cons_append, contains_cons, Bool.or_eq_false_iff] at h
    refine ⟨?_, ih h.2⟩
    cases hs : startsWith [d, d] (c :: (s ++ rest)) with
    | false => rfl
    | true =>
      obtain ⟨t, ht⟩ := startsWith_iff.1 hs
      obtain ⟨hc, hd⟩ : c = d ∧ s ++ rest = d :: t := List.cons.inj ht
      subst hc
      cases s with
      | nil => exact absurd h.1 (by simp [startsWith, after?])
      | cons e s =>
        obtain ⟨he, _⟩ : e = c ∧ s ++ rest = t := List.cons.inj hd
        subst he
        exact absurd h.1 (by simp [startsWith, after?])

theorem quiet_open {s : Text} (h : contains Template.openMark (s ++ ['{']) = false)
    (rest : Text) : Quiet (startsWith Template.openMark) s rest :=
  quiet_double h rest

theorem Bare.quiet_open {s : Text} (h : Bare s) (rest : Text) :
    Quiet (startsWith Template.openMark) s rest := by
  refine quiet_of_forall fun c hc t => ?_
  have hb : c ≠ '{' := fun e => h.not_mem (by decide) (e ▸ hc)
  simp [startsWith, after?, Template.openMark, Ne.symm hb]

theorem Quiet.braced {u rest : Text} (h : Quiet (startsWith Template.openMark) u rest)
    (x : Text) : Quiet (startsWith (braced x)) u rest :=
  h.mono fun _ hs => startsWith_open_of_braced hs

end Crosswalk.Text
