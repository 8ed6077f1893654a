import Crosswalk.Proofs.Pairs
import Crosswalk.Record.Convert

/-!
# What entries leave to each other

The entries of one conversion share a context, where every template binds `value` anew, and the
backends that were opened for the document. No entry sees what another one left there:

* `Alike start s`: nothing but the binding of `value` and the opened backends tells `s` from `start`.
* `Steady start x`: from every state alike, `x` gives what it gives from the start, and what it
  leaves is alike again.

The values of every entry are steady (`Entry.steady_values`), since templates and queries are.
-/

namespace Crosswalk

variable {α β : Type} {start s : Shared}

/-! ## States alike -/

/-- A state that no entry can tell from the start of the conversion. -/
structure Alike [Host] (start s : Shared) : Prop where
  tables : s.context.tables = start.context.tables
  vars : ∀ v, Pairs.put ("value" : Text) v s.context.vars =
    Pairs.put ("value" : Text) v start.context.vars
  backend : ∀ querier,
    (s.queries.open? querier).map (·.1) = (start.queries.open? querier).map (·.1)

theorem Alike.refl [Host] (start : Shared) : Alike start start := ⟨rfl, fun _ => rfl, fun _ => rfl⟩

/-- An opened backend is the one that would be opened again. -/
theorem Queries.open?_eq_ok [Host] {q q' : Queries} {querier : Querier} {b : Backend}
    (h : q.open? querier = .ok (b, q')) (other : Querier) :
    (q'.open? other).map (·.1) = (q.open? other).map (·.1) := by
  unfold Queries.open? at h
  split at h
  · rw [(Prod.mk.inj (Except.ok.inj h)).2]
  · next hnone =>
    cases hb : Backend.ofDocument querier q.document q.columns with
    | error e => rw [hb] at h; cases h
    | ok b' =>
      rw [hb] at h
      obtain ⟨rfl, rfl⟩ := Prod.mk.inj (Except.ok.inj h)
      unfold Queries.open?
      rw [Pairs.get?_put]
      by_cases e : other = querier
      · rw [if_pos e, e, hnone, hb]
        rfl
      · rw [if_neg e]
        cases Pairs.get? other q.opened with
        | some b => rfl
        | none => cases Backend.ofDocument other q.document q.columns <;> rfl

theorem Alike.bind [Host] (h : Alike start s) (subject : Subject) :
    Alike start { s with context := s.context.bind subject } where
  tables := h.tables
  vars := fun v => (Pairs.put_put _ _ _ _).trans (h.vars v)
  backend := h.backend

theorem Alike.opened [Host] (h : Alike start s) {querier : Querier} {b : Backend}
    {queries : Queries} (ho : s.queries.open? querier = .ok (b, queries)) :
    Alike start { s with queries := queries } where
  tables := h.tables
  vars := h.vars
  backend := fun other => (Queries.open?_eq_ok ho other).trans (h.backend other)

theorem Alike.scope [Host] (h : Alike start s) (subject : Subject) :
    s.context.scope subject = start.context.scope subject := by
  unfold Context.scope Context.bind
  rw [h.tables]
  exact congrArg (Filter.Scope.mk · _) (congrArg Variables.texts (h.vars _))

/-! ## Steady parts of a conversion -/

/-- A part that gives from every state alike what it gives from the start. -/
def Steady [Host] (start : Shared) (x : Sharing α) : Prop :=
  ∀ s, Alike start s → ∃ s', Alike start s' ∧ x.run s = (x.run' start).map fun a => (a, s')

namespace Steady

theorem pure [Host] (a : α) : Steady start (pure a) := fun s h => ⟨s, h, rfl⟩

/-- A steady part may run after anything that leaves a state alike. -/
theorem run'_eq [Host] {x : Sharing α} (hx : Steady start x) (h : Alike start s) :
    x.run' s = x.run' start := by
  obtain ⟨s', _, e⟩ := hx s h
  show (·.1) <$> x.run s = _
  rw [e]
  cases x.run' start <;> rfl

theorem run'_bind [Host] {x : Sharing α} {f : α → Sharing β} (hx : Steady start x)
    (hf : ∀ a, Steady start (f a)) :
    (x >>= f).run' start = x.run' start >>= fun a => (f a).run' start := by
  obtain ⟨s', hs', e⟩ := hx start (Alike.refl start)
  show (·.1) <$> (x.run start >>= fun p => (f p.1).run p.2) = _
  rw [e]
  cases x.run' start with
  | error e => rfl
  | ok a => exact (hf a).run'_eq hs'

theorem bind [Host] {x : Sharing α} {f : α → Sharing β} (hx : Steady start x)
    (hf : ∀ a, Steady start (f a)) : Steady start (x >>= f) := by
  intro s h
  rw [run'_bind hx hf]
  obtain ⟨s', hs', e⟩ := hx s h
  show ∃ s'', _ ∧ (x.run s >>= fun p => (f p.1).run p.2) = _
  rw [e]
  cases x.run' start with
  | error e => exact ⟨s', hs', rfl⟩
  | ok a => exact hf a s' hs'

theorem mapM [Host] {l : List α} {f : α → Sharing β} (hf : ∀ a, Steady start (f a)) :
    Steady start (l.mapM f) := by
  induction l with
  | nil => exact .pure []
  | cons a l ih =>
    rw [List.mapM_cons]
    exact (hf a).bind fun b => ih.bind fun bs => .pure (b :: bs)

theorem run'_mapM [Host] {l : List α} {f : α → Sharing β} (hf : ∀ a, Steady start (f a)) :
    (l.mapM f).run' start = l.mapM fun a => (f a).run' start := by
  induction l with
  | nil => rfl
  | cons a l ih =>
    rw [List.mapM_cons, List.mapM_cons, run'_bind (hf a) fun b => (mapM hf).bind fun bs => .pure _]
    refine congrArg _ (funext fun b => ?_)
    rw [run'_bind (mapM hf) fun bs => .pure _, ih]
    rfl

end Steady

/-! ## Templates and queries -/

namespace Rule

theorem evaluate_congr [Host] {context context' : Context} {subject : Subject}
    (h : context.scope subject = context'.scope subject) (m : Modifier) (lookup : Lookup)
    (asXml : Bool) :
    evaluate m subject context lookup asXml = evaluate m subject context' lookup asXml := by
  unfold evaluate Modifier.evaluate Modifier.body
  rw [h]

/-- A modifier is evaluated as in a context of its own. -/
theorem evaluateShared_run [Host] (m : Modifier) (subject : Subject) (lookup : Lookup)
    (asXml : Bool) (s : Shared) :
    ∃ s', (s' = s ∨ s' = { s with context := s.context.bind subject }) ∧
      (evaluateShared m subject lookup asXml).run s =
        (evaluate m subject s.context lookup asXml).map fun o => (o, s') := by
  have hlift : ∀ (x : Converted (Option Text)) (s : Shared),
      (liftM x : Sharing (Option Text)).run s = x.map fun o => (o, s) := by
    intro x s
    cases x <;> rfl
  cases hm : m.isLiteral with
  | true =>
    refine ⟨s, Or.inl rfl, ?_⟩
    unfold evaluateShared
    rw [hm]
    exact hlift _ s
  | false =>
    refine ⟨_, Or.inr rfl, ?_⟩
    have hscope : (s.context.bind subject).scope subject = s.context.scope subject :=
      (Alike.bind (Alike.refl s) subject).scope subject
    unfold evaluateShared
    rw [hm, ← evaluate_congr hscope]
    exact hlift _ { s with context := s.context.bind subject }

theorem evaluateShared_run' [Host] (m : Modifier) (subject : Subject) (lookup : Lookup)
    (asXml : Bool) (s : Shared) : (evaluateShared m subject lookup asXml).run' s =
      evaluate m subject s.context lookup asXml := by
  obtain ⟨s', _, e⟩ := evaluateShared_run m subject lookup asXml s
  show (·.1) <$> (evaluateShared m subject lookup asXml).run s = _
  rw [e]
  cases evaluate m subject s.context lookup asXml <;> rfl

/-- **Templates are steady**: they bind `value` before they read it. -/
theorem steady_evaluateShared [Host] (m : Modifier) (subject : Subject) (lookup : Lookup)
    (asXml : Bool) :
    Steady start (evaluateShared m subject lookup asXml) := by
  intro s h
  obtain ⟨s', hs', e⟩ := evaluateShared_run m subject lookup asXml s
  refine ⟨s', ?_, ?_⟩
  · rcases hs' with rfl | rfl
    · exact h
    · exact h.bind subject
  · rw [e, evaluateShared_run', evaluate_congr (h.scope subject)]

theorem openBackend_run [Host] (querier : Querier) (s : Shared) : (openBackend querier).run s =
    match s.queries.open? querier with
    | .error _ => .ok (none, s)
    | .ok (b, queries) => .ok (some b, { s with queries := queries }) := by
  unfold openBackend
  show (match s.queries.open? querier with
    | .error _ => Pure.pure none
    | .ok (b, queries) => do
      set { s with queries := queries }
      Pure.pure (some b) : Sharing (Option Backend)).run s = _
  cases s.queries.open? querier with
  | error e => rfl
  | ok p => rfl

theorem openBackend_run' [Host] (querier : Querier) (s : Shared) : (openBackend querier).run' s =
    .ok ((s.queries.open? querier).map (·.1)).toOption := by
  show (·.1) <$> (openBackend querier).run s = _
  rw [openBackend_run]
  cases s.queries.open? querier <;> rfl

/-- **Queries are steady**: what is opened is what would be opened again. -/
theorem steady_openBackend [Host] (querier : Querier) : Steady start (openBackend querier) := by
  intro s h
  rw [openBackend_run', ← h.backend, openBackend_run]
  cases ho : s.queries.open? querier with
  | error e => exact ⟨s, h, rfl⟩
  | ok p => exact ⟨_, h.opened (show s.queries.open? querier = .ok (p.1, p.2) from ho), rfl⟩

/-! ## Entries -/

theorem steady_defaultValues [Host] (r : Rule) : Steady start r.defaultValues :=
  (steady_evaluateShared _ _ _ _).bind fun _ => .pure _

theorem steady_sourceValues [Host] (r : Rule) (source : Source) :
    Steady start (r.sourceValues source) := by
  refine (steady_openBackend source.querier).bind fun b? => ?_
  cases b? with
  | none => exact .pure []
  | some b => exact (Steady.mapM fun _ => steady_evaluateShared _ _ _ _).bind fun _ => .pure _

theorem steady_values [Host] (r : Rule) : Steady start r.values := by
  unfold values
  split
  · exact r.steady_sourceValues _
  · exact r.steady_defaultValues

end Rule

/-- **Entries are steady**: what an entry gives does not depend on the ones before it. -/
theorem Entry.steady_values [Host] (e : Entry) : Steady start e.values := by
  cases e with
  | rule r => exact r.steady_values
  | faulty p => exact .pure []

theorem Entry.steady_defaultValues [Host] (e : Entry) : Steady start e.defaultValues := by
  cases e with
  | rule r => exact r.steady_defaultValues
  | faulty p => exact .pure []

end Crosswalk
