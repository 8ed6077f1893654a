import Crosswalk.Proofs.Template.Compiled

/-!
# The phases of a filling

A template is filled in three phases; the first two work from tables that are made before them:

* `queriesOf`: the queried tokens with their values. It fills them in chains too (`fill_queriesOf`).
* `evaluated`: the results, each under its expression as it stands after the queries
  (`evaluated_spec`).

`Token.filled` is what the first phase leaves of a token.
-/

namespace Crosswalk.Template

open Text

/-! ## References -/

theorem reference_injective {name name' : Text} (h : reference name = reference name') :
    name = name' :=
  List.append_cancel_left (List.append_cancel_right h)

theorem get?_references (vars : Pairs Text Text) (name : Text) :
    Pairs.get? (reference name) (references vars) = Pairs.get? name vars := by
  induction vars with
  | nil => rfl
  | cons p vars ih =>
    show Pairs.get? (reference name) ((reference p.1, p.2) :: references vars) = _
    rw [Pairs.get?, ih]
    by_cases e : p.1 = name
    · rw [if_pos (congrArg reference e), Pairs.get?, if_pos e]
    · rw [if_neg fun h => e (reference_injective h), Pairs.get?, if_neg e]

/-- A path is no reference. -/
theorem ProperPath.braced_ne_reference {path : Text} (h : ProperPath path) (name : Text) :
    braced path ≠ reference name := by
  intro e
  rw [reference_eq_braced] at e
  have e' := List.append_cancel_right (List.cons.inj (List.cons.inj e).2).2
  obtain ⟨c, s, hc, hb⟩ := h.first_eq
  rw [hc] at e'
  rw [(List.cons.inj e').1] at hb
  exact absurd hb (by decide)

theorem get?_query_references {path : Text} (h : ProperPath path) (vars : Pairs Text Text) :
    Pairs.get? (braced path) (references vars) = none := by
  refine Pairs.get?_eq_none.2 fun hm => ?_
  obtain ⟨p, hp, e⟩ := List.mem_map.1 hm
  obtain ⟨q, _, rfl⟩ := List.mem_map.1 hp
  exact h.braced_ne_reference q.1 e.symm

theorem inner_braced (x : Text) : inner 2 (braced x) = x := by
  unfold inner
  rw [length_braced]
  simp [braced]

theorem inner_expression (f : Token → Text) (c : Chain) : inner 3 (c.expression f) = c.write f := by
  unfold inner Chain.expression
  simp [spacedOpen, spacedClose]

theorem inner_reference (name : Text) : inner 3 (reference name) = name := by
  unfold inner reference
  simp [spacedOpen, spacedClose]

/-! ## Queries -/

/-- The queries of a template, a variable in the place of its reserved name. -/
def queriesOf (m : Modifier) (vars : Pairs Text Text) (lookup : Lookup) : Pairs Text Text :=
  preferReferences (references vars) (queried m lookup)

theorem mem_keys_queriesOf {m : Modifier} {vars : Pairs Text Text} {lookup : Lookup} {s : Text} :
    s ∈ Pairs.keys (queriesOf m vars lookup) ↔ s ∈ m.replace := by
  have hkeys : Pairs.keys (queriesOf m vars lookup) = Pairs.keys (queried m lookup) := by
    unfold queriesOf preferReferences Pairs.keys
    rw [List.map_map]
    rfl
  rw [hkeys, ← Pairs.get?_isSome]
  unfold queried
  rw [Pairs.get?_ofList_map]
  split
  · next h => exact iff_of_true rfl h
  · next h => exact iff_of_false (by decide) h

section

variable {l : Layout} {m : Modifier} {vars : Pairs Text Text} {lookup : Lookup}
  (hl : ∀ seg ∈ l, seg.Proper) (hm : Compiled l m)

include hl hm

theorem mem_queriesOf {p : Text × Text} (h : p ∈ queriesOf m vars lookup) :
    ∃ t ∈ l.tokens, t.isQueried = true ∧ p = (t.text, t.value vars lookup) := by
  obtain ⟨q, hq, rfl⟩ := List.mem_map.1 h
  have hq := Pairs.mem_ofList hq
  obtain ⟨token, htoken, rfl⟩ := List.mem_map.1 hq
  obtain ⟨t, ht, hqt, rfl⟩ := (hm.queried token).1 htoken
  refine ⟨t, ht, hqt, congrArg (Prod.mk _) ?_⟩
  have hp := Layout.proper_of_mem_tokens hl ht
  cases t with
  | query path =>
    have hres : reservedTokens.elem (braced path) = false := by
      cases hr : reservedTokens.elem (braced path) with
      | false => rfl
      | true =>
        obtain ⟨name, _, e⟩ := reserved_eq (List.elem_iff.1 hr)
        exact absurd e (ProperPath.braced_ne_reference hp name)
    simp only [Token.text_query, get?_query_references hp, inner_braced, hres]
    cases lookup <;> rfl
  | named name =>
    have hres : reservedTokens.elem (reference name) = true := hqt
    simp only [Token.text_named, get?_references, hres]
    cases lookup <;> rfl

theorem look_queriesOf {t : Token} (ht : t ∈ l.tokens) :
    look (queriesOf m vars lookup) t.text = t.filled vars lookup := by
  unfold look Token.filled
  split
  · next hq =>
    have hkey : t.text ∈ Pairs.keys (queriesOf m vars lookup) :=
      mem_keys_queriesOf.2 ((hm.queried _).2 ⟨t, ht, hq, rfl⟩)
    obtain ⟨v, hv⟩ := Option.isSome_iff_exists.1 (Pairs.get?_isSome.2 hkey)
    obtain ⟨t', ht', _, e⟩ := mem_queriesOf hl hm (Pairs.mem_of_get? hv)
    obtain ⟨e1, e2⟩ := Prod.mk.inj e
    have := Token.Proper.text_injective (Layout.proper_of_mem_tokens hl ht)
      (Layout.proper_of_mem_tokens hl ht') e1
    rw [hv, e2, this]
    rfl
  · next hq =>
    rw [Pairs.get?_eq_none.2 fun h => ?_]
    · rfl
    · obtain ⟨t', ht', hq', e⟩ := (hm.queried _).1 (mem_keys_queriesOf.1 h)
      have := Token.Proper.text_injective (Layout.proper_of_mem_tokens hl ht)
        (Layout.proper_of_mem_tokens hl ht') e
      exact hq (this ▸ hq')

/-- **The queries** fill the queried tokens, in chains too. -/
theorem fill_queriesOf (hv : ∀ t ∈ l.tokens, t.isQueried = true → Bare (t.value vars lookup))
    (l' : Layout) (hl' : ∀ seg ∈ l', seg ∈ l) :
    fill (queriesOf m vars lookup) l'.text =
      l'.write (Token.filled vars lookup) (Chain.expression (Token.filled vars lookup)) := by
  have htokens : ∀ t ∈ l'.tokens, t ∈ l.tokens := by
    intro t ht
    obtain ⟨seg, hs, ht⟩ := List.mem_flatMap.1 ht
    exact Layout.mem_tokens (hl' seg hs) ht
  have := fill_tokens (fun seg hs => hl seg (hl' seg hs)) (queriesOf m vars lookup)
    (fun p hp => ?_) (fun p hp c hc f => ?_) Token.text (fun _ _ => Or.inl rfl) fun _ _ _ v h => ?_
  · refine this.trans (Layout.write_congr (fun t ht => ?_) fun c hc =>
      Chain.expression_congr fun t ht => ?_)
    · exact look_queriesOf hl hm (htokens t (Layout.mem_tokens ht (List.mem_singleton.2 rfl)))
    · exact look_queriesOf hl hm (htokens t (Layout.mem_tokens hc ht))
  · obtain ⟨t, ht, _, rfl⟩ := mem_queriesOf hl hm hp
    exact (Layout.proper_of_mem_tokens hl ht).isKey
  · obtain ⟨t, ht, _, rfl⟩ := mem_queriesOf hl hm hp
    exact Chain.Proper.expression_ne_text (hl _ (hl' _ hc)) f (Layout.proper_of_mem_tokens hl ht)
  · obtain ⟨t, ht, hq, e⟩ := mem_queriesOf hl hm (Pairs.mem_of_get? h)
    rw [(Prod.mk.inj e).2]
    exact hv t ht hq

end

/-! ## Results -/

/-- An expression with its queries filled, when some stand in it. -/
def expressionOf (queries : Pairs Text Text) (chain : Text × Bool) : Text :=
  if chain.2 then fill queries chain.1 else chain.1

/-- One more result. -/
def addResult [Host] (scope : Filter.Scope) (queries : Pairs Text Text) (results : Pairs Text Text)
    (chain : Text × Bool) : Except Filter.NotWhole (Pairs Text Text) := do
  let result ← Filter.evaluate scope (inner 3 (expressionOf queries chain))
  pure (results.put (expressionOf queries chain) result)

section

variable {scope : Filter.Scope} {queries : Pairs Text Text} {chains : List (Text × Bool)}

theorem evaluated_eq_foldlM [Host] : evaluated scope queries chains =
    chains.foldlM (addResult scope queries) [] := rfl

theorem addResult_eq_ok [Host] {results results' : Pairs Text Text} {chain : Text × Bool}
    (h : addResult scope queries results chain = .ok results') :
    ∃ r, Filter.evaluate scope (inner 3 (expressionOf queries chain)) = .ok r ∧
      results' = results.put (expressionOf queries chain) r := by
  unfold addResult at h
  cases he : Filter.evaluate scope (inner 3 (expressionOf queries chain)) with
  | error e => rw [he] at h; cases h
  | ok r =>
    rw [he] at h
    exact ⟨r, rfl, (Except.ok.inj h).symm⟩

/-- A run over further chains keeps the results that are there, and their order. -/
theorem foldlM_addResult [Host] {start results : Pairs Text Text} {seen : List Text}
    (h : chains.foldlM (addResult scope queries) start = .ok results)
    (hstart : ∀ p ∈ start, Filter.evaluate scope (inner 3 p.1) = .ok p.2)
    (hkeys : Pairs.keys start = distinct seen) :
    (∀ p ∈ results, Filter.evaluate scope (inner 3 p.1) = .ok p.2) ∧
      Pairs.keys results = distinct (seen ++ chains.map (expressionOf queries)) := by
  induction chains generalizing start seen with
  | nil =>
    obtain rfl : start = results := Except.ok.inj h
    rw [List.map_nil, List.append_nil]
    exact ⟨hstart, hkeys⟩
  | cons chain chains ih =>
    rw [List.foldlM_cons] at h
    cases hs : addResult scope queries start chain with
    | error e => rw [hs] at h; cases h
    | ok next =>
      rw [hs] at h
      obtain ⟨r, hr, rfl⟩ := addResult_eq_ok hs
      have hnext : Pairs.keys (Pairs.put (expressionOf queries chain) r start) =
          distinct (seen ++ [expressionOf queries chain]) := by
        rw [Pairs.keys_put, hkeys, distinct_concat]
        simp only [mem_distinct]
      have := ih h (fun p hp => ?_) hnext
      · rwa [List.append_assoc] at this
      · rcases Pairs.mem_put hp with rfl | hp
        · exact hr
        · exact hstart p hp

/-- The results are those of the expressions, each at its first place. -/
theorem evaluated_spec [Host] {results : Pairs Text Text}
    (h : evaluated scope queries chains = .ok results) :
    (∀ p ∈ results, Filter.evaluate scope (inner 3 p.1) = .ok p.2) ∧
      Pairs.keys results = distinct (chains.map (expressionOf queries)) :=
  foldlM_addResult h (fun _ hp => absurd hp List.not_mem_nil) (show _ = distinct [] from rfl)

theorem mem_keys_evaluated [Host] {results : Pairs Text Text}
    (h : evaluated scope queries chains = .ok results) {k : Text} :
    k ∈ Pairs.keys results ↔ ∃ chain ∈ chains, expressionOf queries chain = k := by
  rw [(evaluated_spec h).2, mem_distinct, List.mem_map]

theorem evaluated_ok [Host] (h : ∀ chain ∈ chains,
    ∃ r, Filter.evaluate scope (inner 3 (expressionOf queries chain)) = .ok r) :
    ∃ results, evaluated scope queries chains = .ok results := by
  rw [evaluated_eq_foldlM]
  generalize ([] : Pairs Text Text) = start
  induction chains generalizing start with
  | nil => exact ⟨start, rfl⟩
  | cons chain chains ih =>
    obtain ⟨r, hr⟩ := h chain List.mem_cons_self
    obtain ⟨results, hresults⟩ := ih (fun c hc => h c (List.mem_cons_of_mem chain hc))
      (Pairs.put (expressionOf queries chain) r start)
    refine ⟨results, ?_⟩
    rw [List.foldlM_cons, addResult, hr]
    exact hresults

end

/-! ## The text of a template -/

theorem nonEmpty_getD (s : Text) : (nonEmpty s).getD [] = s := by
  unfold nonEmpty
  split
  · next h => exact h.symm
  · rfl

theorem wrap_compileTemplate (prepend body append s : Text) :
    (compileTemplate prepend body append).wrap s = prepend ++ s ++ append := by
  show (nonEmpty prepend).getD [] ++ s ++ (nonEmpty append).getD [] = _
  rw [nonEmpty_getD, nonEmpty_getD]

/-- A template gives what it is filled with, between its ends, when that says more than its static
text. -/
theorem evaluate_template [Host] {m : Modifier} (hm : m.raw = none ∧ m.val = none) {pattern : Text}
    (hp : m.pattern = some pattern) (hne : pattern ≠ []) {asXml : Bool}
    (hx : pattern ≠ Modifier.xmlPattern ∨ asXml = false) (subject : Subject) (context : Context)
    (lookup : Lookup) :
    m.evaluate subject context lookup asXml =
      (fillAll m (context.scope subject) lookup).map fun s =>
        if saysMore m s then some (m.wrap s) else none := by
  have hno : ¬ (decide (pattern = Modifier.xmlPattern) && asXml) = true := by
    rcases hx with h | h
    · simp [h]
    · simp [h]
  have hbody : m.body subject context lookup asXml = render m (context.scope subject) lookup := by
    unfold Modifier.body
    rw [hp]
    simp only [Option.getD_some]
    obtain ⟨c, s, rfl⟩ := List.exists_cons_of_ne_nil hne
    exact if_neg hno
  unfold Modifier.evaluate
  rw [hm.1, hm.2]
  simp only [hbody]
  unfold render
  cases fillAll m (context.scope subject) lookup with
  | error e => rfl
  | ok s =>
    refine congrArg Except.ok ?_
    by_cases h : saysMore m s = true
    · have hs : s ≠ [] := by
        unfold saysMore at h
        rw [Bool.and_eq_true, bne_iff_ne] at h
        exact h.1
      simp only [h, if_true, Option.bind_some, nonEmpty, if_neg hs, Option.map_some]
    · simp only [if_neg h, Option.bind_none, Option.map_none]

end Crosswalk.Template
