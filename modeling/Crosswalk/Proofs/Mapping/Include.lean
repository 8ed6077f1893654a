import Crosswalk.Mapping.Include
import Crosswalk.Proofs.Outcome
import Crosswalk.Proofs.Text.Replace
import Mathlib.Logic.Relation

/-!
# How far includes are expanded

A text leads to the texts that it includes. Expanding it with room for so many levels fails exactly
when that many steps lead to a text that still has includes:

    (∃ e, expand room store fallback text = .error e) ↔
      ∃ b, Steps (Leads store) room ⟨fallback, text⟩ b ∧ hasIncludes b.text
                                                                        (expand_eq_error_iff)

A text from which a cycle can be reached therefore fails whatever the room (`expand_of_cycle`), and
a chain of `k` includes fails when there is room for less than `k` (`expand_chain`).

Counting levels up to a limit instead of down from it is what `Expands` does, which needs no bound
to be stated; there the expansion is the one result (`expands_iff`).
-/

namespace Crosswalk

open Text Relation

/-! ## Steps and cycles -/

/-- `n` steps of `r`. -/
inductive Steps {α : Type} (r : α → α → Prop) : Nat → α → α → Prop
  | refl {a : α} : Steps r 0 a a
  | head {n : Nat} {a b c : α} : r a b → Steps r n b c → Steps r (n + 1) a c

/-- Steps of `r` lead to a place from which they lead back to it. -/
def ReachesCycle {α : Type} (r : α → α → Prop) (a : α) : Prop :=
  ∃ b, ReflTransGen r a b ∧ TransGen r b b

section
variable {α : Type} {r : α → α → Prop} {a b : α}

theorem steps_zero : Steps r 0 a b ↔ a = b :=
  ⟨fun h => by cases h; rfl, fun h => h ▸ .refl⟩

theorem steps_succ {n : Nat} : Steps r (n + 1) a b ↔ ∃ c, r a c ∧ Steps r n c b :=
  ⟨fun h => by cases h with | head h hs => exact ⟨_, h, hs⟩, fun ⟨_, h, hs⟩ => .head h hs⟩

/-- Before a cycle as well as on it there is a next step. -/
theorem ReachesCycle.next (h : ReachesCycle r a) : ∃ b, r a b ∧ ReachesCycle r b := by
  obtain ⟨b, hab, hb⟩ := h
  obtain rfl | ⟨c, hac, hcb⟩ := ReflTransGen.cases_head hab
  · obtain ⟨c, hac, hca⟩ := TransGen.head'_iff.1 hb
    exact ⟨c, hac, a, hca, hb⟩
  · exact ⟨c, hac, b, hcb, hb⟩

theorem ReachesCycle.steps (h : ReachesCycle r a) (n : Nat) :
    ∃ b, Steps r n a b ∧ ReachesCycle r b := by
  induction n generalizing a with
  | zero => exact ⟨a, .refl, h⟩
  | succ n ih =>
    obtain ⟨b, hab, hb⟩ := h.next
    obtain ⟨c, hbc, hc⟩ := ih hb
    exact ⟨c, .head hab hbc, hc⟩

end

namespace Include

/-! ## Texts that lead to other texts -/

/-- A text, and the directory where its includes are read. -/
structure Source where
  fallback : Option Text
  text : Text

/-- The text includes the other one. -/
def Leads (store : Store) (a b : Source) : Prop :=
  ∃ reference ∈ readings form a.text, target? store a.fallback reference = some (b.text, b.fallback)

theorem startsWith_of_form {s reference : Text} {n : Nat} (h : form s = some (reference, n)) :
    startsWith openMark s = true := by
  unfold form at h
  cases hs : after? openMark s with
  | none => rw [hs] at h; cases h
  | some t => rw [startsWith, hs]; rfl

theorem hasIncludes_of_mem {s reference : Text} (h : reference ∈ readings form s) :
    hasIncludes s = true := by
  obtain ⟨t, ht⟩ := mem_readings.1 h
  obtain ⟨a, b, n, rfl, hb⟩ := exists_of_mem_piecesFrom ht
  exact contains_append_left b (contains_of_startsWith (startsWith_of_form hb))

theorem Leads.hasIncludes {store : Store} {a b : Source} (h : Leads store a b) :
    hasIncludes a.text = true := by
  obtain ⟨reference, hmem, -⟩ := h
  exact hasIncludes_of_mem hmem

/-! ## Room for levels -/

section
variable {α β : Type} {f g : α → Except Excess β} {xs : List α}

theorem mapM_eq_error : (∃ e, xs.mapM f = .error e) ↔ ∃ x ∈ xs, ∃ e, f x = .error e := by
  induction xs with
  | nil => simp [pure, Except.pure]
  | cons x xs ih =>
    simp only [List.mapM_cons, List.mem_cons, exists_eq_or_imp, ← ih]
    cases f x with
    | error e => exact iff_of_true ⟨e, rfl⟩ (.inl ⟨e, rfl⟩)
    | ok y =>
      cases xs.mapM f with
      | error e => exact iff_of_true ⟨e, rfl⟩ (.inr ⟨e, rfl⟩)
      | ok ys => exact iff_of_false (fun ⟨_, h⟩ => by cases h) (by simp)

theorem mapM_eq_ok (h : ∀ x ∈ xs, ∀ y, f x = .ok y → g x = .ok y) {ys : List β}
    (hxs : xs.mapM f = .ok ys) : xs.mapM g = .ok ys := by
  induction xs generalizing ys with
  | nil => exact hxs
  | cons x xs ih =>
    rw [List.mapM_cons] at hxs ⊢
    cases hx : f x with
    | error e => rw [hx] at hxs; cases hxs
    | ok y =>
      rw [h x List.mem_cons_self y hx]
      cases htail : xs.mapM f with
      | error e => rw [hx, htail] at hxs; cases hxs
      | ok zs =>
        rw [hx, htail] at hxs
        rw [ih (fun x hx => h x (List.mem_cons_of_mem _ hx)) htail]
        exact hxs

end

/-- What stands for a reference, where its text is expanded with `room`. -/
def found (room : Nat) (store : Store) (fallback : Option Text) (reference : Text) :
    Except Excess Text :=
  match target? store fallback reference with
  | none => .ok []
  | some (content, inner) => (expand room store inner content).map contentOf

theorem expand_zero (store : Store) (fallback : Option Text) (s : Text) :
    expand 0 store fallback s = if hasIncludes s then .error .includes else .ok s := by
  rw [expand]

theorem expand_succ (room : Nat) (store : Store) (fallback : Option Text) (s : Text) :
    expand (room + 1) store fallback s =
      if hasIncludes s then
        ((pieces form s).mapM (expandPiece (found room store fallback))).map List.flatten
      else .ok s := by
  rw [expand]
  rfl

theorem found_eq_error {room : Nat} {store : Store} {fallback : Option Text} {reference : Text} :
    (∃ e, found room store fallback reference = .error e) ↔
      ∃ b : Source, target? store fallback reference = some (b.text, b.fallback) ∧
        ∃ e, expand room store b.fallback b.text = .error e := by
  unfold found
  cases target? store fallback reference with
  | none => simp
  | some t =>
    refine (exists_congr fun _ => map_eq_error).trans ⟨fun h => ⟨⟨t.2, t.1⟩, rfl, h⟩, ?_⟩
    rintro ⟨b, hb, h⟩
    obtain rfl := Option.some.inj hb
    exact h

/-- Expanding fails when so many steps as there is room for lead to a text with includes. -/
theorem expand_eq_error_iff {room : Nat} {store : Store} {a : Source} :
    (∃ e, expand room store a.fallback a.text = .error e) ↔
      ∃ b, Steps (Leads store) room a b ∧ hasIncludes b.text = true := by
  induction room generalizing a with
  | zero =>
    rw [expand_zero]
    cases h : hasIncludes a.text <;> simp [steps_zero, h]
  | succ room ih =>
    rw [expand_succ]
    cases h : hasIncludes a.text with
    | false =>
      refine iff_of_false (by simp) ?_
      rintro ⟨b, hb, -⟩
      obtain ⟨c, hac, -⟩ := steps_succ.1 hb
      rw [hac.hasIncludes] at h
      cases h
    | true =>
      simp only [if_true, map_eq_error]
      rw [mapM_eq_error]
      constructor
      · rintro ⟨p, hp, e, he⟩
        cases p with
        | char c => cases he
        | found reference t =>
          obtain ⟨c, hc, hfail⟩ := found_eq_error.1 ⟨e, he⟩
          obtain ⟨b, hcb, hb⟩ := ih.1 hfail
          exact ⟨b, .head ⟨reference, mem_readings.2 ⟨t, hp⟩, hc⟩ hcb, hb⟩
      · rintro ⟨b, hab, hb⟩
        obtain ⟨c, ⟨reference, hmem, hc⟩, hcb⟩ := steps_succ.1 hab
        obtain ⟨t, ht⟩ := mem_readings.1 hmem
        exact ⟨_, ht, found_eq_error.2 ⟨c, hc, ih.2 ⟨b, hcb, hb⟩⟩⟩

/-- More room changes nothing where there is enough. -/
theorem expand_of_le {room room' : Nat} (hle : room ≤ room') {store : Store}
    {fallback : Option Text} {s t : Text} (h : expand room store fallback s = .ok t) :
    expand room' store fallback s = .ok t := by
  induction room generalizing room' fallback s t with
  | zero =>
    rw [expand_zero] at h
    cases hs : hasIncludes s with
    | true => rw [hs] at h; cases h
    | false =>
      rw [hs] at h
      cases room' with
      | zero => rw [expand_zero, hs]; exact h
      | succ room' => rw [expand_succ, hs]; exact h
  | succ room ih =>
    obtain ⟨room', rfl⟩ : ∃ n, room' = n + 1 := ⟨room' - 1, by omega⟩
    rw [expand_succ] at h ⊢
    cases hs : hasIncludes s with
    | false => rw [hs] at h; exact h
    | true =>
      rw [hs, if_pos rfl] at h
      rw [if_pos rfl]
      have hfound : ∀ p ∈ pieces form s, ∀ u, expandPiece (found room store fallback) p = .ok u →
          expandPiece (found room' store fallback) p = .ok u := by
        intro p _ u hu
        cases p with
        | char c => exact hu
        | found reference text =>
          revert hu
          simp only [expandPiece, found]
          cases target? store fallback reference with
          | none => exact id
          | some target =>
            dsimp only
            cases hin : expand room store target.2 target.1 with
            | error e => exact fun hu => by cases hu
            | ok v =>
              rw [ih (by omega) hin]
              exact id
      cases hm : (pieces form s).mapM (expandPiece (found room store fallback)) with
      | error e => rw [hm] at h; cases h
      | ok ts =>
        rw [hm] at h
        rw [mapM_eq_ok hfound hm]
        exact h

/-- The pieces of a text in which no include is read give the text. -/
theorem pieces_of_no_readings {ε : Type} {f : Text → Except ε Text} {s : Text}
    (h : readings form s = []) :
    ((pieces form s).mapM (expandPiece f)).map List.flatten = .ok s := by
  have hchars : ∀ p ∈ pieces form s, expandPiece f p = .ok p.text := by
    intro p hp
    cases p with
    | char c => rfl
    | found reference t =>
      have := mem_readings.2 ⟨t, hp⟩
      rw [h] at this
      cases this
  have hmap : (pieces form s).mapM (expandPiece f) = .ok ((pieces form s).map Piece.text) := by
    generalize pieces form s = ps at hchars
    induction ps with
    | nil => rfl
    | cons p ps ih =>
      rw [List.mapM_cons, hchars p List.mem_cons_self,
        ih fun q hq => hchars q (List.mem_cons_of_mem p hq)]
      rfl
  have hflat : ((pieces form s).map Piece.text).flatten = s := flatten_pieces form s
  rw [hmap]
  exact congrArg Except.ok hflat

/-- Where there is room, a text is expanded piece by piece. -/
theorem expand_pieces (room : Nat) (store : Store) (fallback : Option Text) (s : Text) :
    expand (room + 1) store fallback s =
      ((pieces form s).mapM (expandPiece (found room store fallback))).map List.flatten := by
  rw [expand_succ]
  split
  · rfl
  · next hnone =>
    refine (pieces_of_no_readings (List.eq_nil_iff_forall_not_mem.2 fun reference h => ?_)).symm
    exact hnone (hasIncludes_of_mem h)

theorem error_of_mapM {α β : Type} {f : α → Except Excess β} {xs : List α} {e : Excess}
    (h : xs.mapM f = .error e) : ∃ x ∈ xs, f x = .error e := by
  induction xs with
  | nil => cases h
  | cons x xs ih =>
    rw [List.mapM_cons] at h
    cases hx : f x with
    | error e' =>
      rw [hx] at h
      cases h
      exact ⟨x, List.mem_cons_self, hx⟩
    | ok y =>
      cases hxs : xs.mapM f with
      | error e' =>
        rw [hx, hxs] at h
        cases h
        obtain ⟨z, hz, he⟩ := ih hxs
        exact ⟨z, List.mem_cons_of_mem x hz, he⟩
      | ok ys =>
        rw [hx, hxs] at h
        cases h

theorem error_of_map {α β : Type} {x : Except Excess α} {f : α → β} {e : Excess}
    (h : x.map f = .error e) : x = .error e := by
  cases x with
  | error e' => exact congrArg Except.error (Except.error.inj h)
  | ok y => cases h

/-- Expanding fails in one way. -/
theorem eq_includes_of_expand {room : Nat} {store : Store} {fallback : Option Text} {s : Text}
    {e : Excess} (h : expand room store fallback s = .error e) :
    e = .includes := by
  induction room generalizing fallback s with
  | zero =>
    rw [expand_zero] at h
    split at h
    · exact (Except.error.inj h).symm
    · cases h
  | succ room ih =>
    rw [expand_pieces] at h
    obtain ⟨p, -, hp⟩ := error_of_mapM (error_of_map h)
    cases p with
    | char c => cases hp
    | found reference t =>
      rw [expandPiece, found] at hp
      split at hp
      · cases hp
      · exact ih (error_of_map hp)

/-! ## Cycles and chains -/

theorem expand_of_cycle {store : Store} {a : Source} (h : ReachesCycle (Leads store) a)
    (room : Nat) : ∃ e, expand room store a.fallback a.text = .error e := by
  obtain ⟨b, hab, hb⟩ := h.steps room
  obtain ⟨c, hbc, -⟩ := hb.next
  exact expand_eq_error_iff.2 ⟨b, hab, hbc.hasIncludes⟩

/-- The text includes one mapping, which includes the next one, and so on: `k` mappings, the last
of which includes nothing. -/
inductive Chain (store : Store) : Nat → Source → Prop
  | last {a : Source} (h : hasIncludes a.text = false) : Chain store 0 a
  | next {k : Nat} {a b : Source} (hab : Leads store a b) (honly : ∀ c, Leads store a c → c = b)
      (hb : Chain store k b) : Chain store (k + 1) a

/-- A chain fails when there is no room for all of its mappings. -/
theorem expand_chain {store : Store} {k : Nat} {a : Source} (h : Chain store k a) (room : Nat) :
    (∃ e, expand room store a.fallback a.text = .error e) ↔ room < k := by
  rw [expand_eq_error_iff]
  induction room generalizing k a with
  | zero =>
    simp only [steps_zero, exists_eq_left']
    cases h with
    | last h => simp [h]
    | next hab => simp [hab.hasIncludes]
  | succ room ih =>
    simp only [steps_succ]
    cases h with
    | last h =>
      refine iff_of_false ?_ (by omega)
      rintro ⟨b, ⟨c, hac, -⟩, -⟩
      rw [hac.hasIncludes] at h
      cases h
    | next hab honly hb =>
      rw [Nat.add_lt_add_iff_right, ← ih hb]
      constructor
      · rintro ⟨d, ⟨c, hac, hcd⟩, hd⟩
        exact ⟨d, honly c hac ▸ hcd, hd⟩
      · exact fun ⟨d, hbd, hd⟩ => ⟨d, ⟨_, hab, hbd⟩, hd⟩

/-! ## Counting up to a limit -/

mutual

/-- Expanding a text at a depth, where no text deeper than the limit may have includes. -/
inductive Expands (store : Store) (limit : Int) : Int → Source → Except Excess Text → Prop
  | plain {depth : Int} {a : Source} (h : hasIncludes a.text = false) :
      Expands store limit depth a (.ok a.text)
  | tooDeep {depth : Int} {a : Source} (h : hasIncludes a.text = true) (hd : limit < depth) :
      Expands store limit depth a (.error .includes)
  | filled {depth : Int} {a : Source} {r : Except Excess Text} (h : hasIncludes a.text = true)
      (hd : depth ≤ limit) (hr : Fills store limit depth a.fallback (pieces form a.text) r) :
      Expands store limit depth a r

/-- Expanding the pieces of a text from left to right, each include one level deeper. -/
inductive Fills (store : Store) (limit : Int) :
    Int → Option Text → List (Piece Text) → Except Excess Text → Prop
  | nil {depth : Int} {fallback : Option Text} : Fills store limit depth fallback [] (.ok [])
  | char {depth : Int} {fallback : Option Text} {c : Char} {ps : List (Piece Text)}
      {r : Except Excess Text} (h : Fills store limit depth fallback ps r) :
      Fills store limit depth fallback (.char c :: ps) (r.map (c :: ·))
  | missing {depth : Int} {fallback : Option Text} {reference t : Text} {ps : List (Piece Text)}
      {r : Except Excess Text} (ht : target? store fallback reference = none)
      (h : Fills store limit depth fallback ps r) :
      Fills store limit depth fallback (.found reference t :: ps) r
  | failed {depth : Int} {fallback : Option Text} {reference t : Text} {ps : List (Piece Text)}
      {b : Source} {e : Excess} (ht : target? store fallback reference = some (b.text, b.fallback))
      (hb : Expands store limit (depth + 1) b (.error e)) :
      Fills store limit depth fallback (.found reference t :: ps) (.error e)
  | found {depth : Int} {fallback : Option Text} {reference t u : Text} {ps : List (Piece Text)}
      {b : Source} {r : Except Excess Text}
      (ht : target? store fallback reference = some (b.text, b.fallback))
      (hb : Expands store limit (depth + 1) b (.ok u)) (h : Fills store limit depth fallback ps r) :
      Fills store limit depth fallback (.found reference t :: ps) (r.map (contentOf u ++ ·))

end

section
variable {store : Store} {limit depth : Int} {room : Nat}

theorem map_nil_append (x : Except Excess Text) : x.map ([] ++ ·) = x := by cases x <;> rfl

theorem flatten_mapM_cons (f : Piece Text → Except Excess Text) (p : Piece Text)
    (ps : List (Piece Text)) :
    ((p :: ps).mapM f).map List.flatten =
      (f p).bind fun u => ((ps.mapM f).map List.flatten).map (u ++ ·) := by
  rw [List.mapM_cons]
  cases f p with
  | error e => rfl
  | ok u => cases ps.mapM f <;> rfl

/-- The pieces are expanded one by one, when the next level is expanded with `room`. -/
theorem fills_iff (hlevel : ∀ a r, Expands store limit (depth + 1) a r ↔
      r = expand room store a.fallback a.text)
    {fallback : Option Text} {ps : List (Piece Text)} {r : Except Excess Text} :
    Fills store limit depth fallback ps r ↔
      r = (ps.mapM (expandPiece (found room store fallback))).map List.flatten := by
  induction ps generalizing r with
  | nil => exact ⟨fun h => by cases h; rfl, fun h => h ▸ .nil⟩
  | cons p ps ih =>
    rw [flatten_mapM_cons]
    cases p with
    | char c =>
      constructor
      · intro h
        cases h with
        | char h => rw [ih.1 h]; rfl
      · rintro rfl
        exact .char (ih.2 rfl)
    | found reference t =>
      simp only [expandPiece, found]
      cases ht : target? store fallback reference with
      | none =>
        constructor
        · intro h
          cases h with
          | missing _ h =>
            rw [ih.1 h]
            exact (map_nil_append _).symm
          | failed ht' => rw [ht] at ht'; cases ht'
          | found ht' => rw [ht] at ht'; cases ht'
        · rintro rfl
          exact .missing ht (ih.2 (map_nil_append _))
      | some target =>
        constructor
        · intro h
          cases h with
          | missing ht' => rw [ht] at ht'; cases ht'
          | failed ht' hb =>
            rw [ht] at ht'
            obtain rfl := Option.some.inj ht'
            dsimp only
            rw [← (hlevel _ _).1 hb]
            rfl
          | found ht' hb h =>
            rw [ht] at ht'
            obtain rfl := Option.some.inj ht'
            dsimp only
            rw [← (hlevel _ _).1 hb, ih.1 h]
            rfl
        · rintro rfl
          dsimp only
          cases hb : expand room store target.2 target.1 with
          | error e => exact .failed (b := ⟨target.2, target.1⟩) ht ((hlevel _ _).2 hb.symm)
          | ok u =>
            exact .found (b := ⟨target.2, target.1⟩) ht ((hlevel _ _).2 hb.symm) (ih.2 rfl)

/-- Counting up to the limit gives one result, which is the one of counting down from it. -/
theorem expands_iff (hroom : depth + room = limit + 1) {a : Source} {r : Except Excess Text} :
    Expands store limit depth a r ↔ r = expand room store a.fallback a.text := by
  induction room generalizing depth a r with
  | zero =>
    rw [expand_zero]
    constructor
    · intro h
      cases h with
      | plain h => rw [h]; rfl
      | tooDeep h => rw [h]; rfl
      | filled _ hd => omega
    · rintro rfl
      cases h : hasIncludes a.text with
      | false => exact .plain h
      | true => exact .tooDeep h (by omega)
  | succ room ih =>
    have hlevel : ∀ b u, Expands store limit (depth + 1) b u ↔
        u = expand room store b.fallback b.text := fun b u => ih (by omega)
    rw [expand_succ]
    constructor
    · intro h
      cases h with
      | plain h => rw [h]; rfl
      | tooDeep _ hd => omega
      | filled h _ hr => rw [h, (fills_iff hlevel).1 hr]; rfl
    · rintro rfl
      cases h : hasIncludes a.text with
      | false => exact .plain h
      | true => exact .filled h (by omega) ((fills_iff hlevel).2 rfl)

end

end Include
end Crosswalk
