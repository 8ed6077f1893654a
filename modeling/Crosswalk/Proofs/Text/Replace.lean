import Crosswalk.Text.Scan

/-!
# Replacing and cutting, part by part

`replaceAll` and `pieces` read a text from left to right, and what they do in one part of it may
depend on the part after it. `Quiet p u rest` says that nothing `p` sees starts in `u` when `rest`
follows. Then both pass over `u`:

    Quiet (startsWith w) u rest → replaceAll w new (u ++ rest) = u ++ replaceAll w new rest
                                                                          (replaceAll_quiet)
    Quiet (reads form) u rest → pieces form (u ++ rest) = u.map .char ++ pieces form rest
                                                                          (pieces_quiet)

A text without the word is left alone (`replaceAll_of_not_contains`).
-/

namespace Crosswalk.Text

/-! ## Heads of texts -/

theorem startsWith_iff {w s : Text} : startsWith w s = true ↔ ∃ rest, s = w ++ rest := by
  unfold startsWith
  rw [Option.isSome_iff_exists]
  simp only [after?_eq_some]

@[simp] theorem after?_append (w s : Text) : after? w (w ++ s) = some s := after?_eq_some.2 rfl

@[simp] theorem startsWith_append (w s : Text) : startsWith w (w ++ s) = true :=
  startsWith_iff.2 ⟨s, rfl⟩

theorem startsWith_of_append {a b s : Text} (h : startsWith (a ++ b) s = true) :
    startsWith a s = true := by
  obtain ⟨rest, hr⟩ := startsWith_iff.1 h
  exact startsWith_iff.2 ⟨b ++ rest, by rw [hr, List.append_assoc]⟩

theorem after?_eq_none {w s : Text} : after? w s = none ↔ startsWith w s = false := by
  unfold startsWith
  cases after? w s <;> simp

theorem startsWith_nil (s : Text) : startsWith [] s = true := rfl

theorem startsWith_cons {y c : Char} {a s : Text} :
    startsWith (y :: a) (c :: s) = true ↔ y = c ∧ startsWith a s = true := by
  unfold startsWith
  rw [after?]
  split
  · next h => exact (and_iff_right h).symm
  · next h => exact iff_of_false Bool.false_ne_true fun ha => h ha.1

theorem startsWith_of_ne {y c : Char} {a s : Text} (h : y ≠ c) :
    startsWith (y :: a) (c :: s) = false :=
  Bool.eq_false_iff.2 fun hs => h (startsWith_cons.1 hs).1

/-! ## Places of a word -/

theorem cut?_append (w s : Text) : cut? w (w ++ s) = some ([], s) := by
  cases h : w ++ s with
  | nil =>
    obtain ⟨rfl, rfl⟩ := List.append_eq_nil_iff.1 h
    rfl
  | cons c t => rw [cut?, ← h, after?_append]

theorem cut?_cons {w s : Text} {c : Char} (h : startsWith w (c :: s) = false) :
    cut? w (c :: s) = (cut? w s).map fun p => (c :: p.1, p.2) := by
  rw [cut?, after?_eq_none.2 h]

theorem contains_cons {w s : Text} {c : Char} :
    contains w (c :: s) = (startsWith w (c :: s) || contains w s) := by
  cases h : startsWith w (c :: s) with
  | true =>
    obtain ⟨rest, hr⟩ := startsWith_iff.1 h
    unfold contains
    rw [hr, cut?_append]
    rfl
  | false =>
    unfold contains
    rw [cut?_cons h]
    simp

theorem contains_of_startsWith {w s : Text} (h : startsWith w s = true) :
    contains w s = true := by
  obtain ⟨rest, rfl⟩ := startsWith_iff.1 h
  unfold contains
  rw [cut?_append]
  rfl

theorem contains_append_left {w a : Text} (b : Text) (h : contains w b = true) :
    contains w (a ++ b) = true := by
  induction a with
  | nil => exact h
  | cons c a ih =>
    rw [List.cons_append, contains_cons, ih]
    simp

theorem contains_append_right {w a b : Text} (h : contains w a = true) :
    contains w (a ++ b) = true := by
  induction a with
  | nil =>
    -- Only the empty word stands in the empty text.
    cases w with
    | nil => cases b <;> simp [contains, cut?, after?]
    | cons d w => simp [contains, cut?, after?] at h
  | cons c a ih =>
    rw [contains_cons, Bool.or_eq_true] at h
    rcases h with h | h
    · obtain ⟨rest, hr⟩ := startsWith_iff.1 h
      exact contains_of_startsWith (startsWith_iff.2 ⟨rest ++ b, by rw [hr, List.append_assoc]⟩)
    · rw [List.cons_append, contains_cons, ih h]
      simp

theorem contains_self (w : Text) : contains w w = true :=
  contains_of_startsWith (startsWith_iff.2 ⟨[], by simp⟩)

theorem contains_middle (a w b : Text) : contains w (a ++ (w ++ b)) = true :=
  contains_append_left (w ++ b) (contains_of_startsWith (startsWith_append w b))

theorem contains_iff_isInfix {w s : Text} : contains w s = true ↔ w <:+: s := by
  constructor
  · intro h
    obtain ⟨p, hp⟩ := Option.isSome_iff_exists.1 h
    exact ⟨p.1, p.2, (cut?_eq_some hp).symm⟩
  · rintro ⟨a, b, rfl⟩
    rw [List.append_assoc]
    exact contains_middle a w b

/-- Before the first place of a word there is none. -/
theorem not_contains_of_cut? {w s a b : Text} (hw : w ≠ [])
    (h : cut? w s = some (a, b)) : contains w a = false := by
  induction s generalizing a with
  | nil =>
    obtain ⟨c, w, rfl⟩ := List.exists_cons_of_ne_nil hw
    cases h
  | cons c s ih =>
    have hnil : contains w [] = false := by
      obtain ⟨c, w, rfl⟩ := List.exists_cons_of_ne_nil hw
      rfl
    cases hstart : startsWith w (c :: s) with
    | true =>
      obtain ⟨t, ht⟩ := startsWith_iff.1 hstart
      rw [ht, cut?_append] at h
      cases h
      exact hnil
    | false =>
      rw [cut?_cons hstart] at h
      obtain ⟨p, hp, he⟩ := Option.map_eq_some_iff.1 h
      obtain ⟨rfl, rfl⟩ := Prod.mk.inj he
      have hhead : startsWith w (c :: p.1) = false := by
        refine Bool.eq_false_iff.2 fun hhead => ?_
        obtain ⟨t, ht⟩ := startsWith_iff.1 hhead
        have hwhole : startsWith w (c :: s) = true := by
          rw [cut?_eq_some hp, List.append_assoc, ← List.cons_append, ht, List.append_assoc]
          exact startsWith_append _ _
        rw [hstart] at hwhole
        cases hwhole
      rw [contains_cons, hhead, ih hp]
      rfl

theorem not_contains_append {w a b : Text} (h : contains w (a ++ b) = false) :
    contains w a = false ∧ contains w b = false := by
  constructor
  · cases ha : contains w a with
    | false => rfl
    | true => rw [contains_append_right ha] at h; exact h
  · cases hb : contains w b with
    | false => rfl
    | true => rw [contains_append_left b hb] at h; exact h

/-- A word without the character `c` does not reach over it. -/
theorem contains_split {w a b : Text} {c : Char} (hw : w ≠ []) (hc : c ∉ w)
    (h : contains w (a ++ c :: b) = true) : contains w a = true ∨ contains w b = true := by
  induction a with
  | nil =>
    rw [List.nil_append, contains_cons, Bool.or_eq_true] at h
    rcases h with h | h
    · obtain ⟨rest, hr⟩ := startsWith_iff.1 h
      obtain ⟨d, w, rfl⟩ := List.exists_cons_of_ne_nil hw
      rw [List.cons_append, List.cons.injEq] at hr
      exact absurd (hr.1 ▸ List.mem_cons_self) hc
    · exact Or.inr h
  | cons d a ih =>
    rw [List.cons_append, contains_cons, Bool.or_eq_true] at h
    rcases h with h | h
    · left
      obtain ⟨rest, hr⟩ := startsWith_iff.1 h
      rw [← List.cons_append] at hr
      rcases List.append_eq_append_iff.1 hr with ⟨u, hu, _⟩ | ⟨u, hu, hv⟩
      · cases u with
        | nil =>
          rw [List.append_nil] at hu
          rw [hu]
          exact contains_self _
        | cons x u =>
          rename_i hx
          rw [List.cons_append, List.cons.injEq] at hx
          exact absurd (by rw [hu, hx.1]; simp) hc
      · rw [hu]
        exact contains_append_right (contains_self w)
    · rcases ih h with h | h
      · exact Or.inl (contains_append_left (a := [d]) a h)
      · exact Or.inr h

/-- Nor is it in two parts with such a character between them. -/
theorem not_contains_append_cons {w a b : Text} {c : Char} (hw : w ≠ []) (hc : c ∉ w)
    (ha : contains w a = false) (hb : contains w b = false) : contains w (a ++ c :: b) = false := by
  refine Bool.eq_false_iff.2 fun h => ?_
  rcases contains_split hw hc h with h | h
  · rw [ha] at h
    cases h
  · rw [hb] at h
    cases h

/-! ## Replacing a word -/

theorem length_lt_of_cut? {w s a b : Text} (hw : w ≠ []) (h : cut? w s = some (a, b)) :
    b.length < s.length := by
  rw [cut?_eq_some h]
  have := List.length_pos_iff.2 hw
  simp only [List.length_append]
  omega

/-- More cuts than there are marks change nothing. -/
theorem split_eq_split {w : Text} (hw : w ≠ []) (n m : Nat) (s : Text) (hn : s.length ≤ n)
    (hm : s.length ≤ m) : split n w s = split m w s := by
  induction n generalizing m s with
  | zero =>
    have hs : s = [] := List.length_eq_zero_iff.1 (by omega)
    subst hs
    obtain ⟨c, w, rfl⟩ := List.exists_cons_of_ne_nil hw
    cases m <;> simp [split, cut?, after?]
  | succ n ih =>
    cases m with
    | zero =>
      have hs : s = [] := List.length_eq_zero_iff.1 (by omega)
      subst hs
      obtain ⟨c, w, rfl⟩ := List.exists_cons_of_ne_nil hw
      simp [split, cut?, after?]
    | succ m =>
      simp only [split]
      split
      · rfl
      · next a b h =>
        have := length_lt_of_cut? hw h
        rw [ih m b (by omega) (by omega)]

theorem splitAll_of_cut? {w s a b : Text} (hw : w ≠ []) (h : cut? w s = some (a, b)) :
    splitAll w s = a :: splitAll w b := by
  have hb := length_lt_of_cut? hw h
  unfold splitAll
  obtain ⟨n, hn⟩ : ∃ n, s.length = n + 1 := ⟨s.length - 1, by omega⟩
  rw [hn, split, h]
  exact congrArg (a :: ·) (split_eq_split hw _ _ _ (by omega) (by omega))

theorem replaceAll_of_cut? {w new s a b : Text} (hw : w ≠ []) (h : cut? w s = some (a, b)) :
    replaceAll w new s = a ++ new ++ replaceAll w new b := by
  unfold replaceAll
  rw [if_neg hw, if_neg hw, splitAll_of_cut? hw h]
  exact joinWith_cons new a (split_ne_nil _ _ _)

theorem replaceAll_of_not_contains {w new s : Text} (h : contains w s = false) :
    replaceAll w new s = s := by
  have hc : cut? w s = none := by
    unfold contains at h
    cases hc : cut? w s with
    | none => rfl
    | some p => rw [hc] at h; cases h
  have hw : w ≠ [] := by
    rintro rfl
    cases s <;> simp [cut?, after?] at hc
  unfold replaceAll splitAll
  rw [if_neg hw]
  cases hs : s.length with
  | zero => rw [split, joinWith_singleton]
  | succ n => rw [split, hc, joinWith_singleton]

@[simp] theorem replaceAll_nil {w new : Text} (hw : w ≠ []) : replaceAll w new [] = [] := by
  refine replaceAll_of_not_contains ?_
  obtain ⟨c, w, rfl⟩ := List.exists_cons_of_ne_nil hw
  rfl

theorem replaceAll_append_self {w new : Text} (s : Text) (hw : w ≠ []) :
    replaceAll w new (w ++ s) = new ++ replaceAll w new s := by
  rw [replaceAll_of_cut? hw (cut?_append w s), List.nil_append]

theorem replaceAll_cons {w new s : Text} {c : Char} (hw : w ≠ [])
    (h : startsWith w (c :: s) = false) :
    replaceAll w new (c :: s) = c :: replaceAll w new s := by
  have hc := cut?_cons h
  cases hs : cut? w s with
  | none =>
    have hn : contains w s = false := by unfold contains; rw [hs]; rfl
    have hm : contains w (c :: s) = false := by rw [contains_cons, h, hn]; rfl
    rw [replaceAll_of_not_contains hn, replaceAll_of_not_contains hm]
  | some p =>
    rw [hs, Option.map_some] at hc
    rw [replaceAll_of_cut? hw hc, replaceAll_of_cut? hw hs]
    rfl

/-- What a replacement makes of a text, from left to right: the word, or a character where no word
starts. -/
theorem replaceAll_induction {w new : Text} (hw : w ≠ []) {motive : Text → Text → Prop}
    (nil : motive [] []) (word : ∀ t r, motive t r → motive (w ++ t) (new ++ r))
    (char : ∀ c s r, startsWith w (c :: s) = false → motive s r → motive (c :: s) (c :: r))
    (s : Text) : motive s (replaceAll w new s) := by
  obtain ⟨n, hn⟩ : ∃ n, s.length ≤ n := ⟨_, Nat.le_refl _⟩
  induction n generalizing s with
  | zero =>
    obtain rfl : s = [] := List.length_eq_zero_iff.1 (by omega)
    rw [replaceAll_nil hw]
    exact nil
  | succ n ih =>
    cases s with
    | nil =>
      rw [replaceAll_nil hw]
      exact nil
    | cons c s =>
      cases hs : startsWith w (c :: s) with
      | true =>
        obtain ⟨t, ht⟩ := startsWith_iff.1 hs
        have hlen := congrArg List.length ht
        have hpos := List.length_pos_iff.2 hw
        simp only [List.length_cons, List.length_append] at hlen hn
        rw [ht, replaceAll_append_self _ hw]
        exact word t _ (ih t (by omega))
      | false =>
        rw [replaceAll_cons hw hs]
        exact char c s _ hs (ih s (by simp only [List.length_cons] at hn; omega))

theorem replaceAll_char (q : Char) (w s : Text) :
    replaceAll [q] w s = s.flatMap fun c => if c = q then w else [c] := by
  have hne : [q] ≠ ([] : Text) := List.cons_ne_nil _ _
  induction s with
  | nil => exact replaceAll_nil hne
  | cons c s ih =>
    rw [List.flatMap_cons, ← ih]
    by_cases hc : c = q
    · rw [if_pos hc, hc]
      exact replaceAll_append_self s hne
    · rw [if_neg hc]
      exact replaceAll_cons hne (startsWith_of_ne (Ne.symm hc))

/-! ## Quiet parts -/

/-- Nothing that `p` sees starts in the text when `rest` follows. -/
def Quiet (p : Text → Bool) : Text → Text → Prop
  | [], _ => True
  | c :: u, rest => p (c :: (u ++ rest)) = false ∧ Quiet p u rest

variable {p q : Text → Bool} {u v rest : Text}

theorem quiet_append :
    Quiet p (u ++ v) rest ↔ Quiet p u (v ++ rest) ∧ Quiet p v rest := by
  induction u with
  | nil => simp [Quiet]
  | cons c u ih => simp [Quiet, ih, and_assoc]

theorem Quiet.mono (h : ∀ s, q s = true → p s = true) (hp : Quiet p u rest) :
    Quiet q u rest := by
  induction u with
  | nil => exact trivial
  | cons c u ih =>
    refine ⟨?_, ih hp.2⟩
    cases hq : q (c :: (u ++ rest)) with
    | false => rfl
    | true => rw [← hp.1, h _ hq]

theorem quiet_of_forall (h : ∀ c ∈ u, ∀ s, p (c :: s) = false) : Quiet p u rest := by
  induction u with
  | nil => exact trivial
  | cons c u ih =>
    exact ⟨h c List.mem_cons_self _, ih fun d hd => h d (List.mem_cons_of_mem c hd)⟩

/-- A word that is not in `u` starts there only if it reaches into what follows. -/
theorem quiet_of_not_contains {w : Text} (hu : contains w u = false)
    (hr : ∀ c ∈ rest.head?, c ∉ w.tail) : Quiet (startsWith w) u rest := by
  induction u with
  | nil => exact trivial
  | cons c u ih =>
    rw [contains_cons, Bool.or_eq_false_iff] at hu
    refine ⟨?_, ih hu.2⟩
    cases hs : startsWith w (c :: (u ++ rest)) with
    | false => rfl
    | true =>
      obtain ⟨t, ht⟩ := startsWith_iff.1 hs
      rw [← List.cons_append] at ht
      rcases List.append_eq_append_iff.1 ht with ⟨a, ha, hb⟩ | ⟨a, ha, hb⟩
      · cases a with
        | nil =>
          rw [List.append_nil] at ha
          rw [ha, startsWith_iff.2 ⟨[], by simp⟩] at hu
          cases hu.1
        | cons d a =>
          rw [hb, ha] at hr
          exact absurd (by simp) (hr d (by simp))
      · rw [ha, startsWith_append] at hu
        cases hu.1

theorem contains_quiet {w u rest : Text} (h : Quiet (startsWith w) u rest) :
    contains w (u ++ rest) = contains w rest := by
  induction u with
  | nil => rfl
  | cons c u ih => rw [List.cons_append, contains_cons, h.1, ih h.2, Bool.false_or]

theorem replaceAll_quiet {w new : Text} (hw : w ≠ []) (h : Quiet (startsWith w) u rest) :
    replaceAll w new (u ++ rest) = u ++ replaceAll w new rest := by
  induction u with
  | nil => rfl
  | cons c u ih => rw [List.cons_append, replaceAll_cons hw h.1, ih h.2, List.cons_append]

/-- A quiet part that no word reaches from the left cuts a text in two. -/
theorem replaceAll_append_quiet {w new : Text} (hw : w ≠ []) (h : Quiet (startsWith w) u rest)
    (hreach : ∀ a x, a ≠ [] → x ≠ [] → w = a ++ x → startsWith x (u ++ rest) = false) (s : Text) :
    replaceAll w new (s ++ (u ++ rest)) = replaceAll w new s ++ (u ++ replaceAll w new rest) := by
  refine replaceAll_induction hw (motive := fun s r => replaceAll w new (s ++ (u ++ rest)) =
    r ++ (u ++ replaceAll w new rest)) (replaceAll_quiet hw h) (fun t r ih => ?_)
    (fun c s r hs ih => ?_) s
  · rw [List.append_assoc, replaceAll_append_self _ hw, ih, List.append_assoc]
  · have hs' : startsWith w (c :: (s ++ (u ++ rest))) = false := by
      cases hs' : startsWith w (c :: (s ++ (u ++ rest))) with
      | false => rfl
      | true =>
        obtain ⟨t, ht⟩ := startsWith_iff.1 hs'
        rw [← List.cons_append] at ht
        rcases List.append_eq_append_iff.1 ht with ⟨x, hx, hr⟩ | ⟨x, hx, _⟩
        · -- The word ends in what follows, unless it is all of the text before.
          by_cases hnil : x = []
          · rw [hnil, List.append_nil] at hx
            rw [← hx, startsWith_iff.2 ⟨[], (List.append_nil w).symm⟩] at hs
            cases hs
          · have := hreach _ x (List.cons_ne_nil c s) hnil hx
            rw [hr, startsWith_append] at this
            cases this
        · rw [hx, startsWith_append] at hs
          cases hs
    rw [List.cons_append, replaceAll_cons hw hs', ih, List.cons_append]

/-- A character that is not in the word cuts a text in two. -/
theorem replaceAll_append_cons {w new : Text} {c : Char} (hw : w ≠ []) (hc : c ∉ w) (s rest : Text) :
    replaceAll w new (s ++ c :: rest) = replaceAll w new s ++ c :: replaceAll w new rest := by
  have hstart : ∀ x t, x ≠ [] → (∀ d ∈ x, d ∈ w) → startsWith x (c :: t) = false := by
    intro x t hx hsub
    obtain ⟨d, x, rfl⟩ := List.exists_cons_of_ne_nil hx
    refine startsWith_of_ne ?_
    rintro rfl
    exact hc (hsub d List.mem_cons_self)
  refine replaceAll_append_quiet (u := [c]) hw ⟨hstart w _ hw fun _ hd => hd, trivial⟩
    (fun a x _ hx e => hstart x _ hx fun d hd => ?_) s
  rw [e]
  exact List.mem_append_right a hd

theorem mem_replaceAll {w new s : Text} {c : Char} (hw : w ≠ []) (h : c ∈ replaceAll w new s) :
    c ∈ s ∨ c ∈ new := by
  revert h
  refine replaceAll_induction hw (motive := fun s r => c ∈ r → c ∈ s ∨ c ∈ new)
    (fun h => Or.inl h) (fun t r ih h => ?_) (fun d s r _ ih h => ?_) s
  · rcases List.mem_append.1 h with h | h
    · exact Or.inr h
    · exact (ih h).imp_left (List.mem_append_right w)
  · rcases List.mem_cons.1 h with rfl | h
    · exact Or.inl List.mem_cons_self
    · exact (ih h).imp_left (List.mem_cons_of_mem d)

/-! ## Cutting by a form -/

/-- Whether a form reads the head of a text. -/
def reads {α : Type} (form : Form α) (s : Text) : Bool := (form s).isSome

theorem pieces_cons {α : Type} {form : Form α} {c : Char} {s : Text}
    (h : reads form (c :: s) = false) : pieces form (c :: s) = .char c :: pieces form s := by
  have hn : form (c :: s) = none := by
    unfold reads at h
    exact Option.isSome_eq_false_iff.1 h |> Option.isNone_iff_eq_none.1
  unfold pieces
  rw [piecesFrom, hn]

theorem pieces_quiet {α : Type} {form : Form α} (h : Quiet (reads form) u rest) :
    pieces form (u ++ rest) = u.map .char ++ pieces form rest := by
  induction u with
  | nil => rfl
  | cons c u ih => rw [List.cons_append, pieces_cons h.1, ih h.2]; rfl

theorem piecesFrom_append {α : Type} (form : Form α) (u s : Text) :
    piecesFrom form u.length (u ++ s) = pieces form s := by
  induction u with
  | nil => rfl
  | cons c u ih => exact ih

/-- What a form reads whole is one piece. -/
theorem pieces_found {α : Type} {form : Form α} {value : α} (hu : u ≠ [])
    (h : form (u ++ rest) = some (value, u.length)) :
    pieces form (u ++ rest) = .found value u :: pieces form rest := by
  obtain ⟨c, u, rfl⟩ := List.exists_cons_of_ne_nil hu
  unfold pieces
  rw [List.cons_append] at h ⊢
  rw [piecesFrom, h]
  simp only [List.length_cons, List.take_left]
  rw [piecesFrom_append]
  rfl

theorem found?_char {α : Type} (u : Text) :
    (u.map Piece.char : List (Piece α)).filterMap Piece.found? = [] := by
  induction u with
  | nil => rfl
  | cons c u ih => rw [List.map_cons, List.filterMap_cons_none (by rfl), ih]

/-- What a form reads in a text, it reads at some place of it. -/
theorem exists_of_mem_piecesFrom {α : Type} {form : Form α} {value : α} {skip : Nat} {t : Text}
    (h : .found value t ∈ piecesFrom form skip s) : ∃ a b n, s = a ++ b ∧ form b = some (value, n) := by
  fun_induction piecesFrom form skip s with
  | case1 => cases h
  | case2 skip c s ih =>
    obtain ⟨a, b, n, rfl, hb⟩ := ih h
    exact ⟨c :: a, b, n, rfl, hb⟩
  | case3 c s value' n hform ih =>
    rcases List.mem_cons.1 h with h | h
    · obtain ⟨rfl, -⟩ := Piece.found.inj h
      exact ⟨[], c :: s, n + 1, rfl, hform⟩
    · obtain ⟨a, b, n, rfl, hb⟩ := ih h
      exact ⟨c :: a, b, n, rfl, hb⟩
  | case4 c s _ ih =>
    obtain ⟨a, b, n, rfl, hb⟩ := ih ((List.mem_cons.1 h).resolve_left (by simp))
    exact ⟨c :: a, b, n, rfl, hb⟩

theorem mem_readings {α : Type} {form : Form α} {value : α} :
    value ∈ readings form s ↔ ∃ t, .found value t ∈ pieces form s := by
  unfold readings
  rw [List.mem_filterMap]
  constructor
  · rintro ⟨p, hp, hv⟩
    cases p with
    | char c => cases hv
    | found v t =>
      obtain rfl : v = value := Option.some.inj hv
      exact ⟨t, hp⟩
  · exact fun ⟨t, ht⟩ => ⟨_, ht, rfl⟩

end Crosswalk.Text
