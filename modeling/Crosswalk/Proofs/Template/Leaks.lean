import Crosswalk.Proofs.Template.Filling
import Mathlib.Algebra.Order.BigOperators.Group.List
import Mathlib.Algebra.Order.Group.Nat

/-!
# Leaks

An expression that comes after an unknown name that it has as an argument has lost it when its own
round comes, so it is not found (`replaced?_results_eq_none`). What is left of it stays in the text
through all the rounds that follow:

    Opened s: in `s` double braces open, and then a parenthesis, without a brace in between
    Opened s → Opened (replaceAll (reference name) v s)                   (Opened.replaceAll_reference)
    ¬ Ordered … → fillAll … = .ok s → '{' ∈ s                                (fillAll_leaks)
-/

namespace Crosswalk.Template

open Text

/-! ## What the rounds leave -/

/-- Somewhere double braces open, and then a parenthesis, without a brace in between. -/
def Opened (s : Text) : Prop := ∃ a u b, s = a ++ (spacedOpen ++ (u ++ '(' :: b)) ∧ Bare u

theorem Opened.mem {s : Text} (h : Opened s) : '{' ∈ s := by
  obtain ⟨a, u, b, rfl, _⟩ := h
  exact List.mem_append_right a (List.mem_append_left _ (by decide))

theorem Opened.append {s : Text} (h : Opened s) (a b : Text) : Opened (a ++ (s ++ b)) := by
  obtain ⟨a', u, b', rfl, hu⟩ := h
  exact ⟨a ++ a', u, b' ++ b, by simp, hu⟩

/-- A round of a word that holds neither braces, blanks nor parentheses closes nothing. -/
theorem Opened.word {s w new : Text} (h : Opened s) (hw : w ≠ [])
    (hno : '{' ∉ w ∧ ' ' ∉ w ∧ '(' ∉ w) (hnew : Bare new) : Opened (replaceAll w new s) := by
  obtain ⟨a, u, b, rfl, hu⟩ := h
  refine ⟨replaceAll w new a, replaceAll w new u, replaceAll w new b, ?_, ?_⟩
  · have hcut : ∀ c t, c ∉ w → replaceAll w new (c :: t) = c :: replaceAll w new t := by
      intro c t hc
      have : replaceAll w new ([] ++ c :: t) = _ := replaceAll_append_cons hw hc [] t
      rwa [replaceAll_nil hw] at this
    show replaceAll w new (a ++ '{' :: '{' :: ' ' :: (u ++ '(' :: b)) = _
    rw [replaceAll_append_cons hw hno.1, hcut _ _ hno.1, hcut _ _ hno.2.1,
      replaceAll_append_cons hw hno.2.2]
    rfl
  · refine List.all_eq_true.2 fun c hc => ?_
    rcases mem_replaceAll hw hc with h | h
    · exact List.all_eq_true.1 hu c h
    · exact List.all_eq_true.1 hnew c h

/-- A reference does not start where the braces open. -/
theorem startsWith_reference_open {name u b : Text} (hno : '(' ∉ name) (hu : Bare u) :
    startsWith (reference name) (spacedOpen ++ (u ++ '(' :: b)) = false := by
  cases h : startsWith (reference name) (spacedOpen ++ (u ++ '(' :: b)) with
  | false => rfl
  | true =>
    obtain ⟨t, ht⟩ := startsWith_iff.1 h
    unfold reference at ht
    rw [List.append_assoc, List.append_assoc] at ht
    rcases List.append_eq_append_iff.1 (List.append_cancel_left ht) with ⟨x, hx, hr⟩ | ⟨x, hx, hr⟩
    · cases x with
      | nil => exact absurd (List.cons.inj hr).1 (by decide)
      | cons c x => exact absurd (by rw [hx, ← (List.cons.inj hr).1]; simp) hno
    · -- The name would end in `u`, which closes no braces.
      have hclose : '}' ∉ x := fun h => hu.not_mem (c := '}') rfl (hx ▸ List.mem_append_right name h)
      match x, hr with
      | [], hr => exact absurd (List.cons.inj hr).1 (by decide)
      | [_], hr => exact absurd (List.cons.inj (List.cons.inj hr).2).1 (by decide)
      | _ :: d :: x, hr =>
        rw [← (List.cons.inj (List.cons.inj hr).2).1] at hclose
        exact absurd (by simp) hclose

/-- What is left of a reference does not start where braces double. -/
theorem startsWith_tail_reference {name x y s : Text} (hname : Bare name) (hx : x ≠ [])
    (hy : y ≠ []) (e : reference name = x ++ y) : startsWith y (openMark ++ s) = false := by
  cases h : startsWith y (openMark ++ s) with
  | false => rfl
  | true =>
    obtain ⟨t, ht⟩ := startsWith_iff.1 h
    obtain ⟨c, y, rfl⟩ := List.exists_cons_of_ne_nil hy
    obtain ⟨d, x, rfl⟩ := List.exists_cons_of_ne_nil hx
    obtain ⟨rfl, htail⟩ : '{' = c ∧ '{' :: s = y ++ t := List.cons.inj ht
    rw [reference_eq_braced] at e
    have e := (List.cons.inj e).2
    cases x with
    | nil =>
      rw [← (List.cons.inj e).2] at htail
      exact absurd (List.cons.inj htail).1 (by decide)
    | cons f x =>
      have e := (List.cons.inj e).2
      have hmem : '{' ∈ ' ' :: (name ++ [' ']) ++ ['}', '}'] := e ▸ (by simp)
      have hname := hname.not_mem (c := '{') rfl
      simp [hname] at hmem

/-- Nor does a round of a reference whose name holds no parenthesis. -/
theorem Opened.replaceAll_reference {s name : Text} (h : Opened s) (hname : Bare name)
    (hno : '(' ∉ name) (v : Text) : Opened (replaceAll (reference name) v s) := by
  obtain ⟨a, u, b, rfl, hu⟩ := h
  have hquiet : Quiet (startsWith (reference name)) (spacedOpen ++ (u ++ ['('])) b := by
    refine ⟨?_, ?_⟩
    · have := startsWith_reference_open (b := b) hno hu
      simpa [spacedOpen] using this
    · rw [reference_eq_braced]
      refine Quiet.braced (u := '{' :: ' ' :: (u ++ ['('])) ⟨rfl, Bare.quiet_open ?_ b⟩ _
      exact bare_cons.2 ⟨rfl, bare_append.2 ⟨hu, by decide⟩⟩
  have hcut : replaceAll (reference name) v (a ++ ((spacedOpen ++ (u ++ ['('])) ++ b)) = _ :=
    replaceAll_append_quiet (isKey_reference hname).ne_nil hquiet
      (fun _ _ hx hy e => startsWith_tail_reference hname hx hy e) a
  refine ⟨replaceAll (reference name) v a, u, replaceAll (reference name) v b, ?_, hu⟩
  simpa using hcut

theorem Opened.fill_references {vars : Pairs Text Text} (hnames : ∀ p ∈ vars, Bare p.1)
    (hno : ∀ p ∈ vars, '(' ∉ p.1) {s : Text} (h : Opened s) : Opened (fill (references vars) s) := by
  induction vars generalizing s with
  | nil => exact h
  | cons p vars ih =>
    refine ih (fun q hq => hnames q (List.mem_cons_of_mem p hq))
      (fun q hq => hno q (List.mem_cons_of_mem p hq)) ?_
    exact h.replaceAll_reference (hnames p List.mem_cons_self) (hno p List.mem_cons_self) p.2

theorem Opened.showQuotes {s : Text} (h : Opened s) : Opened (showQuotes s) :=
  (h.word (by decide) (by decide) (by decide)).word (by decide) (by decide) (by decide)

/-- An expression that is left over opens. -/
theorem opened_write {l : Layout} {f : Token → Text} {g : Chain → Text} {c : Chain}
    (hc : .chain c ∈ l) {h : Token → Text} (hg : g c = c.expression h) {u r : Text}
    (hu : Bare u) (hfirst : c.first = u ++ '(' :: r) : Opened (l.write f g) := by
  obtain ⟨before, after, rfl⟩ := List.append_of_mem hc
  rw [Layout.write_append]
  show Opened (Layout.write f g before ++ (g c ++ Layout.write f g after))
  refine Opened.append ?_ _ _
  refine ⟨[], u, r ++ c.rest.flatMap (fun p => h p.1 ++ p.2) ++ spacedClose, ?_, hu⟩
  rw [hg]
  unfold Chain.expression Chain.write
  rw [hfirst]
  simp

/-! ## Expressions that lose an argument -/

/-- The tokens of a chain as they stand after the queries, or taken out. -/
def Chain.Emptying (vars : Pairs Text Text) (lookup : Lookup) (c : Chain) (f : Token → Text) :
    Prop :=
  ∀ t ∈ c.tokens, f t = t.filled vars lookup ∨ f t = []

/-- Leaks can be told from what is meant. -/
structure Exposed (scope : Filter.Scope) (lookup : Lookup) (l : Layout) : Prop where
  /-- Arguments stand after a parenthesis. -/
  opened : ∀ c, .chain c ∈ l → c.rest ≠ [] → ∃ u r, c.first = u ++ '(' :: r ∧ Bare u
  names : ∀ p ∈ scope.vars, '(' ∉ p.1
  /-- No chain is another one with arguments taken out. -/
  distinct : ∀ c c', .chain c ∈ l → .chain c' ∈ l → ∀ f, c.Emptying scope.vars lookup f →
    c.write f = c'.write (Token.filled scope.vars lookup) →
    c.write f = c.write (Token.filled scope.vars lookup)

theorem Ends.exposed {scope : Filter.Scope} {lookup : Lookup} {l before core after : Layout}
    (h : Ends l before core after) (hx : Exposed scope lookup l) : Exposed scope lookup core where
  opened := fun c hc => hx.opened c (h.mem hc)
  names := hx.names
  distinct := fun c c' hc hc' => hx.distinct c c' (h.mem hc) (h.mem hc')

theorem Chain.length_write_lt {c : Chain} {f g : Token → Text}
    (hle : ∀ t ∈ c.tokens, (f t).length ≤ (g t).length) {t : Token} (ht : t ∈ c.tokens)
    (hlt : (f t).length < (g t).length) : (c.write f).length < (c.write g).length := by
  unfold Chain.write
  rw [List.length_append, List.length_append, List.length_flatMap, List.length_flatMap]
  obtain ⟨p, hp, rfl⟩ := List.mem_map.1 ht
  refine Nat.add_lt_add_left (List.sum_lt_sum _ _ (fun q hq => ?_) ⟨p, hp, ?_⟩) _
  · have := hle q.1 (List.mem_map_of_mem hq)
    simp only [List.length_append]
    omega
  · simp only [List.length_append]
    omega

section

variable [Host] {l : Layout} {m : Modifier} {scope : Filter.Scope} {lookup : Lookup}
  (hf : Fits scope lookup l m.filters) (hl : ∀ seg ∈ l, seg.Proper) (hm : Compiled l m)
  {results : Pairs Text Text}
  (hr : evaluated scope (queriesOf m scope.vars lookup) (chainsOf m (references scope.vars)) =
    .ok results)

include hf hl hm hr

/-- A round takes tokens out of a chain. -/
theorem Chain.Emptying.round {c : Chain} (hc : .chain c ∈ l) {f : Token → Text}
    (h : c.Emptying scope.vars lookup f) {p : Text × Text} (hp : p ∈ results) {t : Token}
    (ht : t ∈ c.tokens) (e : f t = p.1) : p.2 = [] := by
  have hkey := isKey_of_mem_results hf hl hm hr hp
  rcases h t ht with hft | hft
  · rcases mem_results hf hl hm hr hp with ⟨c', hc', hpc, _⟩ | ⟨_, _, _, _, hnil⟩
    · exact absurd (hpc.symm.trans (e.symm.trans hft))
        (expression_ne_filled hf hl hc' _ (Layout.mem_tokens hc ht))
    · exact hnil
  · exact absurd (e.symm.trans hft) hkey.ne_nil

theorem Chain.Emptying.next {c : Chain} (hc : .chain c ∈ l) {f : Token → Text}
    (h : c.Emptying scope.vars lookup f) {p : Text × Text} (hp : p ∈ results) :
    c.Emptying scope.vars lookup fun t => if f t = p.1 then p.2 else f t := by
  intro t ht
  by_cases e : f t = p.1
  · exact Or.inr ((if_pos e).trans (h.round hf hl hm hr hc hp ht e))
  · simpa only [if_neg e] using h t ht

variable (hx : Exposed scope lookup l)

include hx

/-- A chain that is the word of a round is whole. -/
theorem Chain.Emptying.whole {c : Chain} (hc : .chain c ∈ l) {f : Token → Text}
    (h : c.Emptying scope.vars lookup f) {p : Text × Text} (hp : p ∈ results)
    (e : c.expression f = p.1) : c.write f = c.write (Token.filled scope.vars lookup) := by
  rcases mem_results hf hl hm hr hp with ⟨c', hc', hpc, _⟩ | ⟨name, hn, hpn, _⟩
  · refine hx.distinct c c' hc hc' f h ?_
    have := congrArg (inner 3) (e.trans hpc)
    rwa [inner_expression, inner_expression] at this
  · rw [hpn, ← Token.text_named] at e
    exact absurd e (Chain.Proper.expression_ne_text (hl _ hc) _ (Layout.proper_of_mem_tokens hl hn))

/-- A chain that has lost a token is not found any more. -/
theorem replaced?_emptied {c : Chain} (hc : .chain c ∈ l) {ps : Pairs Text Text}
    (hps : ∀ p ∈ ps, p ∈ results) {f : Token → Text} (h : c.Emptying scope.vars lookup f)
    {t : Token} (ht : t ∈ c.tokens) (hft : f t = []) (hne : t.filled scope.vars lookup ≠ []) :
    c.replaced? ps f = none := by
  induction ps generalizing f with
  | nil => rfl
  | cons p ps ih =>
    have hp := hps p List.mem_cons_self
    have hnot : c.expression f ≠ p.1 := by
      intro e
      have hlt := Chain.length_write_lt (f := f) (g := Token.filled scope.vars lookup)
        (fun t' ht' => ?_) ht (by rw [hft]; exact List.length_pos_iff.2 hne)
      · rw [h.whole hf hl hm hr hx hc hp e] at hlt
        exact Nat.lt_irrefl _ hlt
      · rcases h t' ht' with e | e
        · exact Nat.le_of_eq (congrArg List.length e)
        · rw [e]
          exact Nat.zero_le _
    rw [Chain.replaced?, if_neg hnot]
    refine ih (fun q hq => hps q (List.mem_cons_of_mem p hq)) (h.next hf hl hm hr hc hp) ?_
    split
    · next e => exact h.round hf hl hm hr hc hp ht e
    · exact hft

/-- Nor is one whose token comes first. -/
theorem replaced?_lost {c : Chain} (hc : .chain c ∈ l) {ps ps' : Pairs Text Text}
    (hps : ∀ p ∈ ps ++ ps', p ∈ results) {f : Token → Text} (h : c.Emptying scope.vars lookup f)
    {t : Token} (ht : t ∈ c.tokens) (hkey : t.filled scope.vars lookup ∈ Pairs.keys ps)
    (hno : c.expression (Token.filled scope.vars lookup) ∉ Pairs.keys ps) :
    c.replaced? (ps ++ ps') f = none := by
  induction ps generalizing f with
  | nil => cases hkey
  | cons p ps ih =>
    have hp := hps p List.mem_cons_self
    have hrest : ∀ q ∈ ps ++ ps', q ∈ results := fun q hq => hps q (List.mem_cons_of_mem p hq)
    have hnot : c.expression f ≠ p.1 := by
      intro e
      have hwhole := h.whole hf hl hm hr hx hc hp e
      rw [Chain.expression_eq_reference, hwhole, ← Chain.expression_eq_reference] at e
      exact hno (e ▸ List.mem_cons_self)
    have hnext := h.next hf hl hm hr hc hp
    rw [List.cons_append, Chain.replaced?, if_neg hnot]
    by_cases e : t.filled scope.vars lookup = p.1
    · -- This round takes the token out.
      refine replaced?_emptied hf hl hm hr hx hc hrest hnext ht ?_ ?_
      · split
        · next e' => exact h.round hf hl hm hr hc hp ht e'
        · next e' => exact (h t ht).resolve_left fun h => e' (h.trans e)
      · rw [e]
        exact (isKey_of_mem_results hf hl hm hr hp).ne_nil
    · exact ih hrest hnext ((List.mem_cons.1 hkey).resolve_left e)
        fun hm => hno (List.mem_cons_of_mem _ hm)

/-- **A lost argument.** A chain that comes after an unknown name that it has as an argument is not
found when its round comes. -/
theorem replaced?_results_eq_none {c : Chain} (hc : .chain c ∈ l)
    (hno : ¬ c.Leads scope.vars lookup l m.filters) :
    c.replaced? results (Token.filled scope.vars lookup) = none := by
  obtain ⟨a, b, rs, q, rs', hsplit, ha, hrs, _, hkeys⟩ := results_split hf hl hm hr hc
  have hlost : ∃ t ∈ c.tokens, t.filled scope.vars lookup ∈ a := by
    by_contra hnone
    exact hno (leads_of_not_mem hf hl hm hc hsplit fun t ht hta => hnone ⟨t, ht, hta⟩)
  obtain ⟨t, ht, hta⟩ := hlost
  have hmem : ∀ p ∈ rs ++ q :: rs', p ∈ results := fun p hp => hrs ▸ hp
  rw [hrs]
  exact replaced?_lost hf hl hm hr hx hc hmem (fun _ _ => Or.inl rfl) ht ((hkeys _).2 hta)
    fun h => ha ((hkeys _).1 h)

omit hr in
/-- **Leaks.** A filling that is not in order shows where its expression opens. -/
theorem fillAll_leaks (hno : ¬ Ordered scope.vars lookup l m.filters) {s : Text}
    (h : fillAll m scope lookup = .ok s) : '{' ∈ s := by
  unfold Ordered at hno
  simp only [not_forall] at hno
  obtain ⟨c, hc, hlead⟩ := hno
  have hknown : Pairs.get? (c.expression Token.text) (references scope.vars) = none := by
    rw [Chain.expression_eq_reference, get?_references]
    exact hf.chains c hc
  obtain ⟨q, hq, _⟩ := exists_mem_chainsOf hm (hm.chains c hc) hknown
  rw [fillAll_eq hf hl hm (List.ne_nil_of_mem hq)] at h
  cases hr : evaluated scope (queriesOf m scope.vars lookup) (chainsOf m (references scope.vars)) with
  | error e => rw [hr] at h; cases h
  | ok results =>
    rw [hr] at h
    have hs := Except.ok.inj h
    simp only [fill_results_eq hf hl hm hr] at hs
    rw [← hs]
    have hrest : c.rest ≠ [] := by
      intro hnil
      obtain ⟨a, b, _, _, _, hsplit, _⟩ := results_split hf hl hm hr hc
      refine hlead (leads_of_not_mem hf hl hm hc hsplit fun t ht => ?_)
      unfold Chain.tokens at ht
      rw [hnil] at ht
      cases ht
    obtain ⟨u, r, hfirst, hu⟩ := hx.opened c hc hrest
    have hopened := opened_write (f := Token.standing scope.vars lookup)
      (g := fun c => (c.replaced? results (Token.filled scope.vars lookup)).getD
        (c.expression fun t => look results (t.filled scope.vars lookup))) hc
      (by rw [replaced?_results_eq_none hf hl hm hr hx hc hlead]; rfl) hu hfirst
    exact (hopened.showQuotes.fill_references hf.names hx.names).mem

end

end Crosswalk.Template
