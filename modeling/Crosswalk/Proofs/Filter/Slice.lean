import Crosswalk.Host.Bundled
import Crosswalk.Proofs.Filter.Call

/-!
# Slices of texts and of lists

The filter `slice` takes a range of characters from a text and a range of items from a list. Which
places it takes depends on the length `n` alone. With `first = position n start`, and `stop` so many
places further, or so many before the end when the size is negative:

    a text gives the characters at the places from first up to stop           (takenAt_substr)
    a list gives the items there, where a negative stop counts from the end once more
                                                                              (takenAt_sublist)

So the two agree unless more is left out than there is (`Overcuts`), where a text gives nothing. Two
slices, one from where the other ends, make up the slice of both sizes (`take_drop_append`).
-/

namespace Crosswalk.Filter

open Text

/-! ## Places -/

/-- The places below `n` from `first` on and before `stop`. -/
def between (n first : Nat) (stop : Int) : List Nat :=
  (List.range n).filter fun i => first ≤ i ∧ (i : Int) < stop

/-- The items of `ys` are those that `xs` has at the places. -/
def TakenAt {α : Type} (xs : List α) (places : List Nat) (ys : List α) : Prop :=
  ys.map some = places.map fun i => xs[i]?

/-- The end of a range, which lies before the first place when more is left out than there is. -/
def stopOf (n : Nat) (start size : Int) : Int :=
  if 0 ≤ size then position n start + size else n + size

/-- The places of a range. -/
def places (n : Nat) (start size : Int) : List Nat :=
  between n (position n start) (stopOf n start size)

/-- The same range where an end before the first place counts from the end once more. -/
def placesAround (n : Nat) (start size : Int) : List Nat :=
  between n (position n start)
    (if stopOf n start size < 0 then n + stopOf n start size else stopOf n start size)

/-- More is left out than there is, and the end, counted from the end once more, lies behind the
first place. -/
def Overcuts (n : Nat) (start size : Int) : Prop :=
  n + size < 0 ∧ position n start < 2 * n + size

theorem between_eq (n first : Nat) (stop : Int) :
    between n first stop = List.range' first (min stop.toNat n - first) := by
  induction n with
  | zero => simp [between]
  | succ n ih =>
    have hsplit : between (n + 1) first stop =
        between n first stop ++ [n].filter fun i => first ≤ i ∧ (i : Int) < stop := by
      rw [between, List.range_succ, List.filter_append]
      rfl
    rw [hsplit, ih]
    by_cases hn : first ≤ n ∧ (n : Int) < stop
    · have hlen : min stop.toNat (n + 1) - first = (min stop.toNat n - first) + 1 := by omega
      have hlast : first + (min stop.toNat n - first) = n := by omega
      rw [List.filter_cons_of_pos (by simpa using hn), List.filter_nil, hlen, List.range'_concat,
        Nat.one_mul, hlast]
    · have hlen : min stop.toNat (n + 1) - first = min stop.toNat n - first := by omega
      rw [List.filter_cons_of_neg (by simpa using hn), List.filter_nil, hlen, List.append_nil]

theorem between_eq_nil_iff {n first : Nat} {stop : Int} :
    between n first stop = [] ↔ min stop.toNat n ≤ first := by
  rw [between_eq, List.range'_eq_nil_iff]
  omega

variable {α : Type} {xs ys : List α} {ps : List Nat}

theorem takenAt_take_drop (xs : List α) (first : Nat) (stop : Int) :
    TakenAt xs (between xs.length first stop) ((xs.take stop.toNat).drop first) := by
  unfold TakenAt
  rw [between_eq]
  apply List.ext_getElem
  · simp
  · intro i hi hi'
    have hlt : first + i < xs.length := by
      simp only [List.length_map, List.length_drop, List.length_take] at hi
      omega
    simp [hlt]

theorem TakenAt.length_eq (h : TakenAt xs ps ys) : ys.length = ps.length := by
  have hlen := congrArg List.length h
  rwa [List.length_map, List.length_map] at hlen

theorem places_of_neg {n : Nat} {start size : Int} (h : n + size < 0) :
    places n start size = [] := by
  unfold places stopOf
  rw [if_neg (by omega), between_eq_nil_iff]
  omega

theorem placesAround_eq_iff {n : Nat} {start size : Int} :
    placesAround n start size = places n start size ↔ ¬ Overcuts n start size := by
  by_cases hstop : stopOf n start size < 0
  · have hneg : (n : Int) + size < 0 ∧ stopOf n start size = n + size := by
      unfold stopOf at hstop ⊢
      split <;> omega
    rw [places_of_neg hneg.1, placesAround, if_pos hstop, hneg.2, between_eq_nil_iff]
    unfold Overcuts
    omega
  · have hcut : ¬ Overcuts n start size := by
      unfold Overcuts
      unfold stopOf at hstop
      split at hstop <;> omega
    rw [placesAround, if_neg hstop]
    exact iff_of_true rfl hcut

theorem upTo_eq (stop : Int) (xs : List α) :
    upTo stop xs = xs.take (if stop < 0 then xs.length + stop else stop).toNat := by
  unfold upTo
  split <;> rfl

theorem takenAt_sublist (start size : Int) (xs : List α) :
    TakenAt xs (placesAround xs.length start size) (sublist start size xs) := by
  have hsub : sublist start size xs =
      (upTo (stopOf xs.length start size) xs).drop (position xs.length start) := rfl
  rw [hsub, upTo_eq]
  exact takenAt_take_drop xs _ _

theorem takenAt_substr (start size : Int) (w : Text) :
    TakenAt w (places w.length start size) (substr start (some size) w) := by
  have hsub : substr start (some size) w =
      (w.take (stopOf w.length start size).toNat).drop (position w.length start) := by
    unfold substr stopOf
    dsimp only
    by_cases hsize : size < 0
    · rw [if_pos hsize, if_neg (by omega)]
    · have hstop : ((position w.length start : Int) + size).toNat =
          position w.length start + size.toNat := by omega
      rw [if_neg hsize, if_pos (by omega), hstop, List.take_drop]
  rw [hsub]
  exact takenAt_take_drop w _ _

/-- A list gives the places of its range unless more is left out than there is. -/
theorem takenAt_sublist_iff {n : Nat} (start size : Int) (hn : xs.length = n) :
    TakenAt xs (places n start size) (sublist start size xs) ↔ ¬ Overcuts n start size := by
  subst hn
  have htaken := takenAt_sublist start size xs
  constructor
  · intro h hcut
    have hnil : places xs.length start size = [] := places_of_neg hcut.1
    have hlen := htaken.length_eq.symm.trans h.length_eq
    rw [hnil, List.length_nil] at hlen
    have heq : placesAround xs.length start size = places xs.length start size := by
      rw [hnil, List.length_eq_zero_iff.1 hlen]
    exact placesAround_eq_iff.1 heq hcut
  · intro hcut
    rw [← placesAround_eq_iff.2 hcut]
    exact htaken

/-! ## Slices in a row -/

theorem sublist_of_nonneg {start size : Int} (hstart : 0 ≤ start) (hsize : 0 ≤ size) (xs : List α) :
    sublist start size xs = (xs.drop start.toNat).take size.toNat := by
  have hstop : ¬ ((start.toNat : Int) + size < 0) := by omega
  have hsum : ((start.toNat : Int) + size).toNat = start.toNat + size.toNat := by omega
  unfold sublist position
  dsimp only
  rw [if_neg (by omega), if_pos hsize, upTo_eq, if_neg hstop, hsum, List.take_drop]

theorem substr_of_nonneg {start size : Int} (hstart : 0 ≤ start) (hsize : 0 ≤ size) (w : Text) :
    substr start (some size) w = (w.drop start.toNat).take size.toNat := by
  unfold substr position
  dsimp only
  rw [if_neg (by omega), if_neg (by omega)]

theorem take_drop_append {start s t : Int} (hstart : 0 ≤ start) (hs : 0 ≤ s) (ht : 0 ≤ t)
    (xs : List α) :
    (xs.drop start.toNat).take s.toNat ++ (xs.drop (start + s).toNat).take t.toNat =
      (xs.drop start.toNat).take (s + t).toNat := by
  rw [Int.toNat_add hstart hs, Int.toNat_add hs ht, List.take_add, List.drop_drop]

theorem sublist_append {start s t : Int} (hstart : 0 ≤ start) (hs : 0 ≤ s) (ht : 0 ≤ t)
    (xs : List α) : sublist start s xs ++ sublist (start + s) t xs = sublist start (s + t) xs := by
  rw [sublist_of_nonneg hstart hs, sublist_of_nonneg (by omega) ht,
    sublist_of_nonneg hstart (by omega), take_drop_append hstart hs ht]

theorem substr_append {start s t : Int} (hstart : 0 ≤ start) (hs : 0 ≤ s) (ht : 0 ≤ t) (w : Text) :
    substr start (some s) w ++ substr (start + s) (some t) w = substr start (some (s + t)) w := by
  rw [substr_of_nonneg hstart hs, substr_of_nonneg (by omega) ht,
    substr_of_nonneg hstart (by omega), take_drop_append hstart hs ht]

/-! ## Calls -/

/-- A step calls `slice` with a start and a size, each read from the head of an argument; one that
is left out is zero, or one. -/
structure Slices (scope : Scope) (step : Text) (start size : Int) : Prop where
  name_eq : (readCall step).1 = "slice"
  start_eq : (Arguments.at? ⟨(readCall step).2, scope⟩ 0).elim (.ok 0) wholeOf = .ok start
  size_eq : (Arguments.at? ⟨(readCall step).2, scope⟩ 1).elim (.ok 1) wholeOf = .ok size

variable {scope : Scope}

theorem Slices.applyStep [Host] {step : Text} {start size : Int} (h : Slices scope step start size)
    (v : Datum) : applyStep scope v step = .ok (sliceDatum start size v) := by
  have hcalls : Calls scope step "slice" (Arguments.asList ⟨(readCall step).2, scope⟩) :=
    ⟨h.name_eq, rfl⟩
  rw [hcalls.applyStep rfl, applyFilter, slice, h.start_eq, h.size_eq]
  rfl

/-- So there is a slice from every start and of every size. -/
theorem slices_callText (hv : ∀ name ∈ Pairs.keys scope.vars, name.any isQuoteMark = false)
    {start size : Int} {a b : Argument} (ha : a.text = intText start) (hb : b.text = intText size)
    (hstart : (natText start.natAbs).length ≤ maxDigits)
    (hsize : (natText size.natAbs).length ≤ maxDigits) :
    Slices scope (callText "slice" (listText [a, b])) start size := by
  have hword : ∀ c ∈ ("slice" : Text), isAsciiWord c = true := forall_mem_of_all (by decide)
  have hcalls := calls_callText (by decide) hword hv [a, b]
  refine ⟨hcalls.name_eq, ?_, ?_⟩
  · rw [hcalls.at?, List.map_cons, List.getElem?_cons_zero, ha]
    exact wholeOf_intText hstart
  · rw [hcalls.at?, List.map_cons, List.map_cons, List.getElem?_cons_succ, List.getElem?_cons_zero,
      hb]
    exact wholeOf_intText hsize

/-- **One range.** The places that a slice takes from a text depend on its length alone. A list of
that length gives the items at the same places, unless more is left out than there is; and two
slices in a row, neither from the end, make up the slice of both sizes. -/
theorem slice_places [Host] :
    (∀ step start size, Slices scope step start size →
      ∀ (w : Text) (items : List Text), items.length = w.length →
        ∃ s part, applyStep scope (.text w) step = .ok (.text s) ∧
          applyStep scope (.list items) step = .ok (.list part) ∧
          TakenAt w (places w.length start size) s ∧
          TakenAt items (placesAround w.length start size) part ∧
          (TakenAt items (places w.length start size) part ↔ ¬ Overcuts w.length start size)) ∧
    ∀ first second both start s t, 0 ≤ start → 0 ≤ s → 0 ≤ t →
      Slices scope first start s → Slices scope second (start + s) t →
      Slices scope both start (s + t) →
        (∀ w, ∃ a b, applyStep scope (.text w) first = .ok (.text a) ∧
          applyStep scope (.text w) second = .ok (.text b) ∧
          applyStep scope (.text w) both = .ok (.text (a ++ b))) ∧
        ∀ items, ∃ a b, applyStep scope (.list items) first = .ok (.list a) ∧
          applyStep scope (.list items) second = .ok (.list b) ∧
          applyStep scope (.list items) both = .ok (.list (a ++ b)) := by
  constructor
  · intro step start size h w items hlen
    refine ⟨_, _, h.applyStep (.text w), h.applyStep (.list items), takenAt_substr start size w,
      ?_, takenAt_sublist_iff start size hlen⟩
    rw [← hlen]
    exact takenAt_sublist start size items
  · intro first second both start s t hstart hs ht hfirst hsecond hboth
    constructor
    · intro w
      refine ⟨_, _, hfirst.applyStep (.text w), hsecond.applyStep (.text w), ?_⟩
      rw [hboth.applyStep, substr_append hstart hs ht]
      rfl
    · intro items
      refine ⟨_, _, hfirst.applyStep (.list items), hsecond.applyStep (.list items), ?_⟩
      rw [hboth.applyStep, sublist_append hstart hs ht]
      rfl

theorem slice_places_letters :
    let scope : Scope := ⟨[], []⟩
    let letters : List Text := ["a", "b", "c", "d", "e"]
    Slices scope "slice(-4, -1)" (-4) (-1) ∧ ¬ Overcuts 5 (-4) (-1) ∧
      TakenAt ("abcde" : Text) (places 5 (-4) (-1)) "bcd" ∧
      TakenAt letters (places 5 (-4) (-1)) ["b", "c", "d"] ∧
      Slices scope "slice(1)" 1 1 ∧ Slices scope "slice(2, '3')" 2 3 ∧
      Slices scope "slice(1,4)" 1 4 ∧
      ∃ a b, applyStep scope (.list letters) "slice(1)" = .ok (.list a) ∧
        applyStep scope (.list letters) "slice(2, '3')" = .ok (.list b) ∧
        applyStep scope (.list letters) "slice(1,4)" = .ok (.list (a ++ b)) := by
  intro scope letters
  have hback : Slices scope "slice(-4, -1)" (-4) (-1) := ⟨by decide, by decide, by decide⟩
  have hone : Slices scope "slice(1)" 1 1 := ⟨by decide, by decide, by decide⟩
  have hthree : Slices scope "slice(2, '3')" 2 3 := ⟨by decide, by decide, by decide⟩
  have hfour : Slices scope "slice(1,4)" 1 4 := ⟨by decide, by decide, by decide⟩
  have hcut : ¬ Overcuts 5 (-4) (-1) := by
    unfold Overcuts
    decide
  have htext : applyStep scope (.text "abcde") "slice(-4, -1)" = .ok (.text "bcd") := by decide
  have hlist : applyStep scope (.list letters) "slice(-4, -1)" = .ok (.list ["b", "c", "d"]) := by
    decide
  obtain ⟨s, part, hs, hpart, htaken, -, hiff⟩ :=
    slice_places.1 _ _ _ hback "abcde" letters (by decide)
  obtain rfl := Datum.text.inj (Except.ok.inj (htext.symm.trans hs))
  obtain rfl := Datum.list.inj (Except.ok.inj (hlist.symm.trans hpart))
  refine ⟨hback, hcut, htaken, hiff.2 hcut, hone, hthree, hfour, ?_⟩
  exact (slice_places.2 _ _ _ 1 1 3 (by decide) (by decide) (by decide) hone hthree hfour).2 letters

/-- Four items left out of three are one left out of them, while a text gives nothing. -/
theorem slice_around :
    applyStep ⟨[], []⟩ (.text "abc") "slice(0, -4)" = .ok (.text []) ∧
      applyStep ⟨[], []⟩ (.list ["a", "b", "c"]) "slice(0, -4)" = .ok (.list ["a", "b"]) := by
  decide

end Crosswalk.Filter
