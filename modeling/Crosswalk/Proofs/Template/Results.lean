import Crosswalk.Proofs.Template.Phases

/-!
# The results of a template

The expressions of a layout are evaluated with their queries filled, each kept under its text; then
every result stands for its expression (`fill_results`). That an expression still stands as it was
evaluated when its round comes needs that no unknown reference was compiled before an expression
that has it as an argument (`Ordered`): its round would take it out of the expression
(`replaced?_results`).

`Token.standing` is what is left of a token then: its value, or a reference to a known name.
-/

namespace Crosswalk.Template

open Text

/-! ## What a filling must keep -/

/-- The text is a reference to an unknown name, and an argument of the chain. -/
def Chain.Awaits (vars : Pairs Text Text) (c : Chain) (e : Text) : Prop :=
  ∃ name, .named name ∈ c.tokens ∧ e = reference name ∧ Pairs.get? name vars = none

/-- The chain, or one that is the same when the queries are filled, comes among the filters before
any unknown name that it has as an argument. -/
def Chain.Leads (vars : Pairs Text Text) (lookup : Lookup) (l : Layout) (filters : List Text)
    (c : Chain) : Prop :=
  ∃ a c' b, filters = a ++ c'.expression Token.text :: b ∧ .chain c' ∈ l ∧
    c'.expression (Token.filled vars lookup) = c.expression (Token.filled vars lookup) ∧
    ∀ e ∈ a, ¬ c.Awaits vars e

/-- Every chain of the layout comes before the unknown names that it has as arguments. -/
def Ordered (vars : Pairs Text Text) (lookup : Lookup) (l : Layout) (filters : List Text) : Prop :=
  ∀ c, .chain c ∈ l → c.Leads vars lookup l filters

/-- The names of a layout stand for variables and for nothing else. -/
structure Plain [Host] (scope : Filter.Scope) (l : Layout) (filters : List Text) : Prop where
  /-- An unknown name that stands alone gives nothing, as it does unless it names a filter. -/
  unknown : ∀ name, ProperName name → reference name ∈ filters →
    Pairs.get? name scope.vars = none → Filter.evaluate scope name = .ok []
  /-- No variable is named like a chain. -/
  chains : ∀ c, .chain c ∈ l → Pairs.get? (c.write Token.text) scope.vars = none
  names : ∀ p ∈ scope.vars, Bare p.1

/-- What is written is not read again by a later round. -/
structure Fits [Host] (scope : Filter.Scope) (lookup : Lookup) (l : Layout) (filters : List Text) :
    Prop extends Plain scope l filters where
  /-- The values that are written bring no braces. -/
  values : ∀ t ∈ l.tokens, t.isQueried = true ∨ .token t ∈ l → Bare (t.value scope.vars lookup)
  results : ∀ c, .chain c ∈ l → ∀ r, c.value scope lookup = .ok r → Bare r
  /-- Nor do the queries bring quotes. -/
  quotes : ∀ t ∈ l.tokens, t.isQueried = true → (t.value scope.vars lookup).any isQuoteMark = false

theorem Fits.bare_value [Host] {scope : Filter.Scope} {lookup : Lookup} {l : Layout}
    {filters : List Text} (hf : Fits scope lookup l filters) {t : Token} (ht : .token t ∈ l) :
    Bare (t.value scope.vars lookup) :=
  hf.values t (Layout.mem_tokens ht (List.mem_singleton.2 rfl)) (Or.inr ht)

/-! ## The expressions that are evaluated -/

section

variable {l : Layout} {m : Modifier} (hm : Compiled l m) {refs : Pairs Text Text}

include hm

theorem chainsOf_eq :
    chainsOf m refs = (m.filters.zip m.hasReplace).filter fun p => !Pairs.has p.1 refs := by
  unfold chainsOf
  split
  · next h =>
    have hnil : m.filters = [] := by
      have := hm.flags
      rw [h] at this
      exact List.length_eq_zero_iff.1 this.symm
    rw [hnil]
    rfl
  · rfl

theorem mem_chainsOf {p : Text × Bool} : p ∈ chainsOf m refs ↔
    p ∈ m.filters.zip m.hasReplace ∧ Pairs.get? p.1 refs = none := by
  rw [chainsOf_eq hm, List.mem_filter]
  unfold Pairs.has
  cases Pairs.get? p.1 refs <;> simp

theorem exists_mem_chainsOf {e : Text} (he : e ∈ m.filters) (hnone : Pairs.get? e refs = none) :
    ∃ p ∈ chainsOf m refs, p.1 = e := by
  have hfst : (m.filters.zip m.hasReplace).map (·.1) = m.filters :=
    List.map_fst_zip (Nat.le_of_eq hm.flags.symm)
  rw [← hfst] at he
  obtain ⟨p, hp, rfl⟩ := List.mem_map.1 he
  exact ⟨p, (mem_chainsOf hm).2 ⟨hp, hnone⟩, rfl⟩

end

/-- An expression is written like a reference, with its chain for a name. -/
theorem Chain.expression_eq_reference (f : Token → Text) (c : Chain) :
    c.expression f = reference (c.write f) := rfl

section

variable [Host] {l : Layout} {m : Modifier} {scope : Filter.Scope} {lookup : Lookup}
  (hf : Fits scope lookup l m.filters)

include hf

theorem Fits.filled {t : Token} (ht : t ∈ l.tokens) :
    Filled (Token.filled scope.vars lookup) t := by
  unfold Filled Token.filled
  split
  · next hq => exact Or.inr (hf.values t ht (Or.inl hq))
  · exact Or.inl rfl

variable (hl : ∀ seg ∈ l, seg.Proper)

include hl

variable (hm : Compiled l m)

include hm

theorem fill_chain {c : Chain} (hc : .chain c ∈ l) :
    fill (queriesOf m scope.vars lookup) (c.expression Token.text) =
      c.expression (Token.filled scope.vars lookup) := by
  have := fill_queriesOf hl hm (fun t ht hq => hf.values t ht (Or.inl hq)) [.chain c]
    fun seg hs => by rw [List.mem_singleton.1 hs]; exact hc
  simpa [Layout.text, Layout.write, Segment.write] using this

/-- A chain is evaluated with its queries filled; without a flag there are none. -/
theorem expressionOf_chain {p : Text × Bool} (hp : p ∈ m.filters.zip m.hasReplace) {c : Chain}
    (hc : .chain c ∈ l) (hpc : p.1 = c.expression Token.text) :
    expressionOf (queriesOf m scope.vars lookup) p =
      c.expression (Token.filled scope.vars lookup) := by
  rw [← fill_chain hf hl hm hc, ← hpc]
  unfold expressionOf
  split
  · rfl
  · next hflag =>
    rcases hm.flagged p hp with ⟨c', hc', rfl⟩ | ⟨t, ht, _, rfl⟩
    · have hnone : c'.isQueried = false := by simpa using hflag
      rw [fill_chain hf hl hm hc']
      refine Chain.expression_congr fun t ht => ?_
      unfold Token.filled
      rw [if_neg (List.any_eq_false.1 hnone t ht)]
    · exact absurd hpc.symm (Chain.Proper.expression_ne_text (hl _ hc) _
        (Layout.proper_of_mem_tokens hl ht))

/-- What is evaluated is a chain with its queries filled, or an unknown name. -/
theorem expressionOf_chainsOf {p : Text × Bool} (hp : p ∈ chainsOf m (references scope.vars)) :
    (∃ c, .chain c ∈ l ∧ p.1 = c.expression Token.text ∧
      expressionOf (queriesOf m scope.vars lookup) p =
        c.expression (Token.filled scope.vars lookup)) ∨
    ∃ name, .named name ∈ l.tokens ∧ p.1 = reference name ∧
      expressionOf (queriesOf m scope.vars lookup) p = reference name ∧
      Pairs.get? name scope.vars = none := by
  obtain ⟨hzip, hnone⟩ := (mem_chainsOf hm).1 hp
  rcases hm.flagged p hzip with ⟨c, hc, e⟩ | ⟨t, ht, hq, rfl⟩
  · have hpc : p.1 = c.expression Token.text := by rw [e]
    exact Or.inl ⟨c, hc, hpc, expressionOf_chain hf hl hm hzip hc hpc⟩
  · cases t with
    | query path => cases hq
    | named name =>
      rw [Token.text_named] at hnone ⊢
      rw [get?_references] at hnone
      exact Or.inr ⟨name, ht, rfl, rfl, hnone⟩

omit hm in
/-- A whole expression is neither a token nor a value. -/
theorem expression_ne_filled {c : Chain} (hc : .chain c ∈ l) (f : Token → Text) {t : Token}
    (ht : t ∈ l.tokens) : c.expression f ≠ t.filled scope.vars lookup := by
  intro e
  rcases hf.filled ht with h | h
  · exact Chain.Proper.expression_ne_text (hl _ hc) f (Layout.proper_of_mem_tokens hl ht)
      (e.trans h)
  · rw [← e] at h
    exact h.not_mem (c := '{') rfl List.mem_cons_self

omit hm in
/-- A reference that stands after the queries stands for its own name. -/
theorem reference_eq_filled {name : Text} (hn : ProperName name) {t : Token} (ht : t ∈ l.tokens)
    (h : reference name = t.filled scope.vars lookup) :
    t = .named name ∧ t.isQueried = false := by
  unfold Token.filled at h
  cases hq : t.isQueried with
  | true =>
    rw [hq, if_pos rfl] at h
    exact absurd (hf.values t ht (Or.inl hq)) (h ▸ (isKey_reference hn.bare).not_bare)
  | false =>
    rw [hq, if_neg (by decide)] at h
    refine ⟨Token.Proper.text_injective (Layout.proper_of_mem_tokens hl ht)
      (show Token.Proper (.named name) from hn) ?_, rfl⟩
    rw [Token.text_named, h]

/-- What is evaluated as a token of the chain is an unknown name that it has as an argument. -/
theorem awaits_of_expressionOf {c : Chain} (hc : .chain c ∈ l) {p : Text × Bool}
    (hp : p ∈ chainsOf m (references scope.vars)) {t : Token} (ht : t ∈ c.tokens)
    (h : expressionOf (queriesOf m scope.vars lookup) p = t.filled scope.vars lookup) :
    c.Awaits scope.vars p.1 := by
  have htl := Layout.mem_tokens hc ht
  rcases expressionOf_chainsOf hf hl hm hp with ⟨c', hc', _, he⟩ | ⟨name, hn, hp1, he, hnone⟩
  · exact absurd (he.symm.trans h) (expression_ne_filled hf hl hc' _ htl)
  · obtain ⟨rfl, _⟩ := reference_eq_filled hf hl (Layout.proper_of_mem_tokens hl hn) htl
      (he.symm.trans h)
    exact ⟨name, ht, hp1, hnone⟩

omit [Host] hf in
/-- An unknown argument among the filters is evaluated as the token that it is. -/
theorem expressionOf_awaits {c : Chain} (hc : .chain c ∈ l) {p : Text × Bool}
    (hp : p ∈ m.filters.zip m.hasReplace) (h : c.Awaits scope.vars p.1) :
    p ∈ chainsOf m (references scope.vars) ∧
      ∃ t ∈ c.tokens, expressionOf (queriesOf m scope.vars lookup) p = t.filled scope.vars lookup := by
  obtain ⟨name, hn, hp1, hnone⟩ := h
  have hnp := (hl _ hc).tokens _ hn
  refine ⟨(mem_chainsOf hm).2 ⟨hp, by rw [hp1, get?_references]; exact hnone⟩, _, hn, ?_⟩
  rcases hm.flagged p hp with ⟨c', hc', rfl⟩ | ⟨t, ht, hq, rfl⟩
  · rw [← Token.text_named] at hp1
    exact absurd hp1 (Chain.Proper.expression_ne_text (hl _ hc') _ hnp)
  · have : t = .named name := Token.Proper.text_injective (Layout.proper_of_mem_tokens hl ht) hnp
      (hp1.trans (Token.text_named name).symm)
    subst this
    unfold Token.filled
    rw [hq, if_neg (by decide)]
    rfl

/-- What comes before a chain among the filters is evaluated before it. -/
theorem Chain.Leads.not_mem {c : Chain} (hc : .chain c ∈ l)
    (hlead : c.Leads scope.vars lookup l m.filters) {a b : List Text}
    (h : (chainsOf m (references scope.vars)).map (expressionOf (queriesOf m scope.vars lookup)) =
      a ++ c.expression (Token.filled scope.vars lookup) :: b)
    (ha : c.expression (Token.filled scope.vars lookup) ∉ a) :
    ∀ t ∈ c.tokens, t.filled scope.vars lookup ∉ a := by
  obtain ⟨a', c', b', hsplit, hc', he, hno⟩ := hlead
  intro t ht hta
  have hzip : (m.filters.zip m.hasReplace).map (·.1) = m.filters :=
    List.map_fst_zip (Nat.le_of_eq hm.flags.symm)
  obtain ⟨za, zq, hz, hza, hzq⟩ := List.map_eq_append_iff.1 (hzip.trans hsplit)
  obtain ⟨q, zb, rfl, hq, _⟩ := List.map_eq_cons_iff.1 hzq
  have hqe : expressionOf (queriesOf m scope.vars lookup) q =
      c.expression (Token.filled scope.vars lookup) :=
    (expressionOf_chain hf hl hm (by rw [hz]; simp) hc' hq).trans he
  have hkeep : (!Pairs.has q.1 (references scope.vars)) = true := by
    unfold Pairs.has
    rw [hq, Chain.expression_eq_reference, get?_references, hf.chains c' hc']
    rfl
  rw [chainsOf_eq hm, hz, List.filter_append,
    List.filter_cons_of_pos (p := fun p : Text × Bool => !Pairs.has p.1 (references scope.vars)) hkeep,
    List.map_append, List.map_cons, hqe] at h
  obtain ⟨p, hp, hpt⟩ := List.mem_map.1 (subset_of_append_cons h.symm ha hta)
  have hpc : p ∈ chainsOf m (references scope.vars) := by
    rw [chainsOf_eq hm, hz, List.filter_append]
    exact List.mem_append_left _ hp
  refine hno p.1 ?_ (awaits_of_expressionOf hf hl hm hc hpc ht hpt)
  rw [← hza]
  exact List.mem_map_of_mem (List.mem_filter.1 hp).1

/-- What is evaluated before a chain comes before it among the filters. -/
theorem leads_of_not_mem {c : Chain} (hc : .chain c ∈ l) {a b : List Text}
    (h : (chainsOf m (references scope.vars)).map (expressionOf (queriesOf m scope.vars lookup)) =
      a ++ c.expression (Token.filled scope.vars lookup) :: b)
    (hno : ∀ t ∈ c.tokens, t.filled scope.vars lookup ∉ a) :
    c.Leads scope.vars lookup l m.filters := by
  have hzip : (m.filters.zip m.hasReplace).map (·.1) = m.filters :=
    List.map_fst_zip (Nat.le_of_eq hm.flags.symm)
  obtain ⟨ca, cq, hsplit, hca, hcq⟩ := List.map_eq_append_iff.1 h
  obtain ⟨q, cb, rfl, hqe, _⟩ := List.map_eq_cons_iff.1 hcq
  have hqc : q ∈ chainsOf m (references scope.vars) := by
    rw [hsplit]
    simp
  rw [chainsOf_eq hm] at hsplit
  obtain ⟨za, zq, hz, hza, hzq⟩ := List.filter_eq_append_iff.1 hsplit
  obtain ⟨zn, zb, rfl, hzn, _, _⟩ := List.filter_eq_cons_iff.1 hzq
  rcases expressionOf_chainsOf hf hl hm hqc with ⟨c', hc', hq1, he⟩ | ⟨name, hn, _, he, _⟩
  · refine ⟨(za ++ zn).map (·.1), c', zb.map (·.1), ?_, hc', he.symm.trans hqe, ?_⟩
    · rw [← hzip, hz, ← hq1]
      simp
    · intro e hmem haw
      obtain ⟨p, hp, rfl⟩ := List.mem_map.1 hmem
      have hpz : p ∈ m.filters.zip m.hasReplace := by
        rw [hz, ← List.append_assoc]
        exact List.mem_append_left _ hp
      obtain ⟨hpc, t, ht, hpt⟩ : p ∈ chainsOf m (references scope.vars) ∧ ∃ t ∈ c.tokens,
          expressionOf (queriesOf m scope.vars lookup) p = t.filled scope.vars lookup :=
        expressionOf_awaits hl hm hc hpz haw
      have hkeep := (List.mem_filter.1 (chainsOf_eq hm ▸ hpc)).2
      refine hno t ht ?_
      rw [← hca, ← hpt]
      refine List.mem_map_of_mem ?_
      rcases List.mem_append.1 hp with hp | hp
      · exact hza ▸ List.mem_filter.2 ⟨hp, hkeep⟩
      · exact absurd hkeep (hzn p hp)
  · rw [he, ← Token.text_named] at hqe
    exact absurd hqe.symm (Chain.Proper.expression_ne_text (hl _ hc) _
      (Layout.proper_of_mem_tokens hl hn))

omit [Host] hf hl in
theorem mem_filters_of_mem_chainsOf {refs : Pairs Text Text} {p : Text × Bool}
    (hp : p ∈ chainsOf m refs) : p.1 ∈ m.filters :=
  (List.of_mem_zip ((mem_chainsOf hm).1 hp).1).1

/-! ## The results -/

variable {results : Pairs Text Text}
  (hr : evaluated scope (queriesOf m scope.vars lookup) (chainsOf m (references scope.vars)) =
    .ok results)

include hr

theorem mem_results {p : Text × Text} (hp : p ∈ results) :
    (∃ c, .chain c ∈ l ∧ p.1 = c.expression (Token.filled scope.vars lookup) ∧
      c.value scope lookup = .ok p.2) ∨
    ∃ name, .named name ∈ l.tokens ∧ p.1 = reference name ∧
      Pairs.get? name scope.vars = none ∧ p.2 = [] := by
  have hev := (evaluated_spec hr).1 p hp
  obtain ⟨q, hq, hqp⟩ := (mem_keys_evaluated hr).1 (List.mem_map_of_mem hp)
  rcases expressionOf_chainsOf hf hl hm hq with ⟨c, hc, _, he⟩ | ⟨name, hn, hq1, he, hnone⟩
  · rw [hqp] at he
    rw [he, inner_expression] at hev
    exact Or.inl ⟨c, hc, he, hev⟩
  · rw [hqp] at he
    have hno := hf.unknown name (Layout.proper_of_mem_tokens hl hn)
      (hq1 ▸ mem_filters_of_mem_chainsOf hm hq) hnone
    rw [he, inner_reference, hno] at hev
    exact Or.inr ⟨name, hn, he, hnone, (Except.ok.inj hev).symm⟩

theorem isKey_of_mem_results {p : Text × Text} (hp : p ∈ results) : IsKey p.1 := by
  rcases mem_results hf hl hm hr hp with ⟨c, hc, he, _⟩ | ⟨name, hn, he, _⟩
  · rw [he, Chain.expression_eq_braced]
    refine ⟨_, Chain.Proper.paired_inside (hl _ hc) fun t ht => ?_, rfl⟩
    have ht := Layout.mem_tokens hc ht
    exact (hf.filled ht).paired (Layout.proper_of_mem_tokens hl ht)
  · have hnp : ProperName name := Layout.proper_of_mem_tokens hl hn
    rw [he]
    exact isKey_reference hnp.bare

theorem get?_results_chain {c : Chain} (hc : .chain c ∈ l) : ∃ r,
    Pairs.get? (c.expression (Token.filled scope.vars lookup)) results = some r ∧
      c.value scope lookup = .ok r := by
  have hnone : Pairs.get? (c.expression Token.text) (references scope.vars) = none := by
    rw [Chain.expression_eq_reference, get?_references]
    exact hf.chains c hc
  obtain ⟨q, hq, hq1⟩ := exists_mem_chainsOf hm (hm.chains c hc) hnone
  have hkey := (mem_keys_evaluated hr).2 ⟨q, hq, rfl⟩
  rw [expressionOf_chain hf hl hm ((mem_chainsOf hm).1 hq).1 hc hq1] at hkey
  obtain ⟨r, hget⟩ := Option.isSome_iff_exists.1 (Pairs.get?_isSome.2 hkey)
  have hev := (evaluated_spec hr).1 _ (Pairs.mem_of_get? hget)
  rw [inner_expression] at hev
  exact ⟨r, hget, hev⟩

/-- An unknown name that stands alone has the empty text for a result. -/
theorem get?_results_unknown {name : Text} (hn : .token (.named name) ∈ l)
    (hq : Token.isQueried (.named name) = false) (hnone : Pairs.get? name scope.vars = none) :
    Pairs.get? (reference name) results = some [] := by
  have hfilter := hm.alone _ hn hq
  rw [Token.text_named] at hfilter
  obtain ⟨q, hq', hq1⟩ := exists_mem_chainsOf hm hfilter
    (by rw [get?_references]; exact hnone)
  have hkey := (mem_keys_evaluated hr).2 ⟨q, hq', rfl⟩
  have hnp : Token.Proper (.named name) := (hl _ hn).tokens _ (List.mem_singleton.2 rfl)
  have he : expressionOf (queriesOf m scope.vars lookup) q = reference name := by
    rcases expressionOf_chainsOf hf hl hm hq' with ⟨c, hc, hqc, _⟩ | ⟨name', _, hqn, he, _⟩
    · rw [hq1, ← Token.text_named] at hqc
      exact absurd hqc.symm (Chain.Proper.expression_ne_text (hl _ hc) _ hnp)
    · rw [he, ← hqn, hq1]
  rw [he] at hkey
  obtain ⟨v, hv⟩ := Option.isSome_iff_exists.1 (Pairs.get?_isSome.2 hkey)
  rcases mem_results hf hl hm hr (Pairs.mem_of_get? hv) with ⟨c, hc, hpc, _⟩ | ⟨_, _, _, _, hnil⟩
  · have hpc : reference name = c.expression (Token.filled scope.vars lookup) := hpc
    rw [← Token.text_named] at hpc
    exact absurd hpc.symm (Chain.Proper.expression_ne_text (hl _ hc) _ hnp)
  · rw [hv]
    exact congrArg some hnil

/-- A known name is not among the results. -/
theorem get?_results_known {name : Text} (hn : ProperName name)
    (hsome : Pairs.get? name scope.vars ≠ none) :
    Pairs.get? (reference name) results = none := by
  refine Pairs.get?_eq_none.2 fun hm' => ?_
  obtain ⟨p, hp, e⟩ := List.mem_map.1 hm'
  rcases mem_results hf hl hm hr hp with ⟨c, hc, hpc, _⟩ | ⟨name', _, hpn, hnone, _⟩
  · rw [e, ← Token.text_named] at hpc
    exact Chain.Proper.expression_ne_text (hl _ hc) _ (t := .named name) hn hpc.symm
  · rw [e] at hpn
    exact hsome (reference_injective hpn ▸ hnone)

/-! ## Filling the expressions -/

/-- A token when only the references are left to fill. -/
def Token.standing (vars : Pairs Text Text) (lookup : Lookup) (t : Token) : Text :=
  if t.isQueried = false ∧ Pairs.get? t.text (references vars) ≠ none then t.text
  else t.value vars lookup

theorem look_results_token {t : Token} (ht : .token t ∈ l) :
    look results (t.filled scope.vars lookup) = t.standing scope.vars lookup := by
  have htp : t.Proper := (hl _ ht).tokens t (List.mem_singleton.2 rfl)
  have htl := Layout.mem_tokens ht (List.mem_singleton.2 rfl)
  unfold Token.filled Token.standing look
  cases hq : t.isQueried with
  | true =>
    rw [if_pos rfl, if_neg fun h => absurd h.1 (by decide),
      get?_bare (fun p hp => isKey_of_mem_results hf hl hm hr hp) (hf.values t htl (Or.inl hq))]
    rfl
  | false =>
    cases t with
    | query path => cases hq
    | named name =>
      rw [if_neg (by decide), Token.text_named, get?_references]
      cases hv : Pairs.get? name scope.vars with
      | none =>
        rw [get?_results_unknown hf hl hm hr ht hq hv, if_neg fun h => h.2 rfl]
        show ([] : Text) = known scope.vars name
        unfold known
        rw [hv]
        rfl
      | some v =>
        rw [get?_results_known hf hl hm hr htp (by rw [hv]; exact Option.some_ne_none v),
          if_pos ⟨rfl, Option.some_ne_none v⟩]
        rfl

/-- The results bring no braces. -/
theorem bare_of_mem_results {p : Text × Text} (hp : p ∈ results) : Bare p.2 := by
  rcases mem_results hf hl hm hr hp with ⟨c, hc, _, hval⟩ | ⟨_, _, _, _, hnil⟩
  · exact hf.results c hc _ hval
  · rw [hnil]
    exact bare_nil

/-- The results before that of a chain are those of what is evaluated before it. -/
theorem results_split {c : Chain} (hc : .chain c ∈ l) : ∃ a b rs q rs',
    (chainsOf m (references scope.vars)).map (expressionOf (queriesOf m scope.vars lookup)) =
      a ++ c.expression (Token.filled scope.vars lookup) :: b ∧
    c.expression (Token.filled scope.vars lookup) ∉ a ∧
    results = rs ++ q :: rs' ∧ q.1 = c.expression (Token.filled scope.vars lookup) ∧
    ∀ k, k ∈ Pairs.keys rs ↔ k ∈ a := by
  obtain ⟨r, hget, _⟩ := get?_results_chain hf hl hm hr hc
  have hmem : c.expression (Token.filled scope.vars lookup) ∈ Pairs.keys results :=
    Pairs.get?_isSome.1 (by rw [hget]; rfl)
  have hkeys := (evaluated_spec hr).2
  rw [hkeys, mem_distinct] at hmem
  obtain ⟨a, b, hsplit, ha⟩ := List.eq_append_cons_of_mem hmem
  obtain ⟨zs, hzs⟩ := distinct_append_cons ha b
  rw [hsplit, hzs] at hkeys
  obtain ⟨rs, rq, hrs, hka, hkq⟩ := List.map_eq_append_iff.1 hkeys
  obtain ⟨q, rs', rfl, hq, _⟩ := List.map_eq_cons_iff.1 hkq
  refine ⟨a, b, rs, q, rs', hsplit, ha, hrs, hq, fun k => ?_⟩
  unfold Pairs.keys
  rw [hka, mem_distinct]

/-- An expression is there as it was evaluated when its round comes. -/
theorem replaced?_results {c : Chain} (hc : .chain c ∈ l)
    (hlead : c.Leads scope.vars lookup l m.filters) : ∃ r,
    c.replaced? results (Token.filled scope.vars lookup) = some r ∧
      c.value scope lookup = .ok r := by
  obtain ⟨r, hget, hval⟩ := get?_results_chain hf hl hm hr hc
  obtain ⟨a, b, rs, q, rs', hsplit, ha, hrs, hq, hkeys⟩ := results_split hf hl hm hr hc
  refine ⟨r, ?_, hval⟩
  rw [← hget, hrs]
  refine Chain.replaced?_eq_get? hq fun p hp t ht e => ?_
  exact hlead.not_mem hf hl hm hc hsplit ha t ht (e ▸ (hkeys p.1).1 (List.mem_map_of_mem hp))

/-- The rounds of the results fill the unknown names, and each expression that is whole when its
round comes. -/
theorem fill_results_eq : fill results (l.write (Token.filled scope.vars lookup)
      (Chain.expression (Token.filled scope.vars lookup))) =
    l.write (Token.standing scope.vars lookup) fun c =>
      (c.replaced? results (Token.filled scope.vars lookup)).getD
        (c.expression fun t => look results (t.filled scope.vars lookup)) := by
  have hbare : ∀ {p : Text × Text}, p ∈ results → Bare p.2 := bare_of_mem_results hf hl hm hr
  have hfill := fill_rounds hl (.first (fun p hp => isKey_of_mem_results hf hl hm hr hp)
    (fun t ht => hf.filled ht) (fun _ _ _ _ hget => hbare (Pairs.mem_of_get? hget))
    fun c _ v h => by
      obtain ⟨p, hp, e⟩ := Chain.mem_of_replaced? h
      exact e ▸ hbare hp)
  exact hfill.trans (Layout.write_congr (fun t ht => look_results_token hf hl hm hr ht)
    fun _ _ => by rw [Option.none_or])

/-- **The results** stand for the expressions and for the unknown names. -/
theorem fill_results (hord : Ordered scope.vars lookup l m.filters) : ∃ g : Chain → Text,
    (∀ c, .chain c ∈ l → c.value scope lookup = .ok (g c)) ∧
    fill results (l.write (Token.filled scope.vars lookup)
        (Chain.expression (Token.filled scope.vars lookup))) =
      l.write (Token.standing scope.vars lookup) g := by
  refine ⟨fun c => (c.replaced? results (Token.filled scope.vars lookup)).getD [],
    fun c hc => ?_, (fill_results_eq hf hl hm hr).trans
      (Layout.write_congr (fun _ _ => rfl) fun c hc => ?_)⟩
  · obtain ⟨r, hr, hval⟩ := replaced?_results hf hl hm hr hc (hord c hc)
    simp only [hr]
    exact hval
  · obtain ⟨r, hr, _⟩ := replaced?_results hf hl hm hr hc (hord c hc)
    rw [hr]
    rfl

end

end Crosswalk.Template
