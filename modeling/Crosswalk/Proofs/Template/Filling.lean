import Crosswalk.Proofs.Filter.Step
import Crosswalk.Proofs.Template.Ends
import Crosswalk.Proofs.Template.Results

/-!
# Filling a layout

The core of a layout gives what it stands for between the ends, when that says more than the static
text:

    core.value … = .ok s → (compile l.text).evaluate … =
      .ok (if saysMore … s then some (before.text ++ s ++ after.text) else none)
                                                                        (Ends.evaluate_eq_ok)

After the results only references to known names are left (`Token.standing`); they are filled last.
The words that stand for quotes while expressions are evaluated come back as quotes before that, so
neither the values together nor a name may spell one.
-/

namespace Crosswalk.Template

open Text

/-! ## The references that are left -/

/-- What is left of a token is its value, or a reference to a name that has it for a variable. -/
theorem Token.standing_eq (vars : Pairs Text Text) (lookup : Lookup) (t : Token) :
    t.standing vars lookup = t.value vars lookup ∨
      ∃ name, t = .named name ∧ t.standing vars lookup = reference name ∧
        Pairs.get? name vars = some (t.value vars lookup) := by
  unfold Token.standing
  split
  · next h =>
    cases t with
    | query path => cases h.1
    | named name =>
      rw [Token.text_named, get?_references] at h
      obtain ⟨v, hv⟩ := Option.ne_none_iff_exists'.1 h.2
      refine Or.inr ⟨name, rfl, Token.text_named name, ?_⟩
      show _ = some (known vars name)
      unfold known
      rw [hv]
      rfl
  · exact Or.inl rfl

/-- A segment with the result of a chain as literal text. -/
def Segment.settle (g : Chain → Text) : Segment → Segment
  | .chain c => .literal (g c)
  | seg => seg

theorem write_settle (f : Token → Text) (g h : Chain → Text) (l : Layout) :
    Layout.write f h (l.map (Segment.settle g)) = l.write f g := by
  unfold Layout.write
  rw [List.flatMap_map]
  refine List.flatMap_congr fun seg _ => ?_
  cases seg <;> rfl

theorem mem_tokens_settle {g : Chain → Text} {l : Layout} {t : Token}
    (h : t ∈ Layout.tokens (l.map (Segment.settle g))) : .token t ∈ l := by
  obtain ⟨seg', hs', ht⟩ := List.mem_flatMap.1 h
  obtain ⟨seg, hs, rfl⟩ := List.mem_map.1 hs'
  cases seg with
  | literal s => cases ht
  | token t' => exact List.mem_singleton.1 ht ▸ hs
  | chain c => cases ht

/-- A text without the words that stand for quotes. -/
def Unquoted (s : Text) : Prop :=
  contains doubleQuoteWord s = false ∧ contains singleQuoteWord s = false

instance (s : Text) : Decidable (Unquoted s) := inferInstanceAs (Decidable (_ ∧ _))

theorem showQuotes_unquoted {s : Text} (h : Unquoted s) : showQuotes s = s := by
  unfold showQuotes
  rw [replaceAll_of_not_contains h.1, replaceAll_of_not_contains h.2]

section

variable [Host] {l : Layout} {m : Modifier} {scope : Filter.Scope} {lookup : Lookup}
  (hf : Fits scope lookup l m.filters) (hl : ∀ seg ∈ l, seg.Proper)

include hf hl

theorem proper_settle {g : Chain → Text} (hg : ∀ c, .chain c ∈ l → c.value scope lookup = .ok (g c)) :
    ∀ seg ∈ l.map (Segment.settle g), seg.Proper := by
  intro seg' hs'
  obtain ⟨seg, hs, rfl⟩ := List.mem_map.1 hs'
  cases seg with
  | literal s => exact hl _ hs
  | token t => exact hl _ hs
  | chain c => exact hf.results c hs _ (hg c hs)

omit hl in
theorem Fits.isKey_references {p : Text × Text} (hp : p ∈ references scope.vars) : IsKey p.1 := by
  obtain ⟨q, hq, rfl⟩ := List.mem_map.1 hp
  exact isKey_reference (hf.names q hq)

omit hl in
theorem look_standing {t : Token} (ht : .token t ∈ l) :
    look (references scope.vars) (t.standing scope.vars lookup) = t.value scope.vars lookup := by
  unfold look
  rcases Token.standing_eq scope.vars lookup t with he | ⟨name, _, he, hget⟩
  · rw [he, get?_bare (fun p hp => hf.isKey_references hp) (hf.bare_value ht)]
    rfl
  · rw [he, get?_references, hget]
    rfl

/-- **The references** to known names are filled last. -/
theorem fill_standing {g : Chain → Text}
    (hg : ∀ c, .chain c ∈ l → c.value scope lookup = .ok (g c)) :
    fill (references scope.vars) (l.write (Token.standing scope.vars lookup) g) =
      l.write (Token.value scope.vars lookup) g := by
  have hfill := fill_tokens (proper_settle hf hl hg) (references scope.vars)
    (fun p hp => hf.isKey_references hp)
    (fun p hp c hc => by
      obtain ⟨seg, _, e⟩ := List.mem_map.1 hc
      cases seg <;> cases e)
    (Token.standing scope.vars lookup)
    (fun t ht => by
      have hv := hf.bare_value (mem_tokens_settle ht)
      rcases Token.standing_eq scope.vars lookup t with he | ⟨name, rfl, he, _⟩
      · exact Or.inr (he ▸ hv)
      · exact Or.inl (he.trans (Token.text_named name).symm))
    (fun t ht hst v hv => by
      have ht := mem_tokens_settle ht
      have hbare := hf.bare_value ht
      rw [← look_standing hf ht, hst] at hbare
      unfold look at hbare
      rwa [hv] at hbare)
  rw [write_settle, write_settle] at hfill
  rw [hfill]
  exact Layout.write_congr (fun t ht => look_standing hf ht) fun _ _ => rfl

end

/-! ## The words that stand for quotes -/

theorem contains_of_cons {w s : Text} {c : Char} (hne : w ≠ []) (hc : c ∉ w)
    (h : contains w (c :: s) = true) : contains w s = true := by
  rcases contains_split (a := []) hne hc h with h | h
  · obtain ⟨d, w, rfl⟩ := List.exists_cons_of_ne_nil hne
    cases h
  · exact h

/-- A word without the marks of a reference is beside it, or in its name. -/
theorem contains_reference {w a name b : Text} (hne : w ≠ []) (hw : '{' ∉ w ∧ ' ' ∉ w ∧ '}' ∉ w)
    (h : contains w (a ++ (reference name ++ b)) = true) :
    contains w a = true ∨ contains w name = true ∨ contains w b = true := by
  have e : a ++ (reference name ++ b) = a ++ '{' :: '{' :: ' ' :: (name ++ ' ' :: '}' :: '}' :: b) := by
    simp [reference, spacedOpen, spacedClose]
  rw [e] at h
  rcases contains_split hne hw.1 h with h | h
  · exact Or.inl h
  · have h := contains_of_cons hne hw.2.1 (contains_of_cons hne hw.1 h)
    rcases contains_split hne hw.2.1 h with h | h
    · exact Or.inr (Or.inl h)
    · exact Or.inr (Or.inr (contains_of_cons hne hw.2.2 (contains_of_cons hne hw.2.2 h)))

/-- Such a word is in the values, or in a name that is not filled yet. -/
theorem contains_standing {w : Text} (hne : w ≠ []) (hw : '{' ∉ w ∧ ' ' ∉ w ∧ '}' ∉ w)
    {vars : Pairs Text Text} {lookup : Lookup} {l : Layout} {g : Chain → Text} {a : Text}
    (h : contains w (a ++ l.write (Token.standing vars lookup) g) = true) :
    contains w (a ++ l.write (Token.value vars lookup) g) = true ∨
      ∃ name, .token (.named name) ∈ l ∧ contains w name = true := by
  induction l generalizing a with
  | nil => exact Or.inl h
  | cons seg l ih =>
    have hcons : ∀ f, Layout.write f g (seg :: l) = seg.write f g ++ Layout.write f g l :=
      fun f => rfl
    rw [hcons] at h ⊢
    have hmem : ∀ {b : Text}, (contains w (b ++ Layout.write (Token.value vars lookup) g l) = true ∨
        ∃ name, .token (.named name) ∈ l ∧ contains w name = true) →
        contains w (b ++ Layout.write (Token.value vars lookup) g l) = true ∨
          ∃ name, .token (.named name) ∈ seg :: l ∧ contains w name = true := fun h =>
      h.imp_right fun ⟨name, hn, hc⟩ => ⟨name, List.mem_cons_of_mem seg hn, hc⟩
    have hsame : seg.write (Token.standing vars lookup) g = seg.write (Token.value vars lookup) g →
        contains w (a ++ (seg.write (Token.value vars lookup) g ++
            Layout.write (Token.value vars lookup) g l)) = true ∨
          ∃ name, .token (.named name) ∈ seg :: l ∧ contains w name = true := by
      intro e
      rw [e, ← List.append_assoc] at h
      rw [← List.append_assoc]
      exact hmem (ih h)
    cases seg with
    | literal s => exact hsame rfl
    | chain c => exact hsame rfl
    | token t =>
      rcases Token.standing_eq vars lookup t with he | ⟨name, rfl, he, _⟩
      · exact hsame he
      · rw [show Segment.write (Token.standing vars lookup) g (.token (.named name)) =
          reference name from he] at h
        rcases contains_reference hne hw h with h | h | h
        · exact Or.inl (contains_append_right h)
        · exact Or.inr ⟨name, List.mem_cons_self, h⟩
        · rcases ih (a := []) h with h | ⟨name, hn, hc⟩
          · exact Or.inl (contains_append_left _ (contains_append_left _ h))
          · exact Or.inr ⟨name, List.mem_cons_of_mem _ hn, hc⟩

/-! ## Filling all -/

theorem hideQuotes_of_no_quotes {s : Text} (h : s.any isQuoteMark = false) : hideQuotes s = s := by
  have hnot : ∀ q, isQuoteMark q = true → contains [q] s = false := by
    intro q hq
    induction s with
    | nil => rfl
    | cons c s ih =>
      rw [List.any_cons, Bool.or_eq_false_iff] at h
      rw [contains_cons, ih h.2, Bool.or_false]
      refine startsWith_of_ne ?_
      rintro rfl
      rw [h.1] at hq
      cases hq
  unfold hideQuotes
  rw [replaceAll_of_not_contains (hnot '"' rfl), replaceAll_of_not_contains (hnot '\'' rfl)]

section

variable [Host] {l : Layout} {m : Modifier} {scope : Filter.Scope} {lookup : Lookup}
  (hf : Fits scope lookup l m.filters) (hl : ∀ seg ∈ l, seg.Proper) (hm : Compiled l m)
  (hord : Ordered scope.vars lookup l m.filters)
  (hwords : ∀ s, l.value scope lookup = .ok s → Unquoted s)
  (hnames : ∀ name, .token (.named name) ∈ l → Unquoted name)

include hf hl hm

theorem hide_queriesOf : ((queriesOf m scope.vars lookup).map fun p => (p.1, hideQuotes p.2)) =
    queriesOf m scope.vars lookup := by
  refine (List.map_congr_left fun p hp => ?_).trans (List.map_id _)
  obtain ⟨t, ht, hq, rfl⟩ := mem_queriesOf hl hm hp
  exact congrArg (Prod.mk _) (hideQuotes_of_no_quotes (hf.quotes t ht hq))

/-- With expressions to evaluate, the rounds follow one another. -/
theorem fillAll_eq (hne : chainsOf m (references scope.vars) ≠ []) :
    fillAll m scope lookup =
      (evaluated scope (queriesOf m scope.vars lookup) (chainsOf m (references scope.vars))).map
        fun results => fill (references scope.vars) (showQuotes (fill results
          (l.write (Token.filled scope.vars lookup)
            (Chain.expression (Token.filled scope.vars lookup))))) := by
  have hpattern : m.pattern.getD [] = l.text := by rw [hm.pattern]; rfl
  have hhide := hide_queriesOf hf hl hm
  have hq := fill_queriesOf hl hm (fun t ht hq => hf.values t ht (Or.inl hq)) l fun _ hs => hs
  unfold queriesOf at hhide hq ⊢
  unfold fillAll
  simp only [hpattern, hhide, if_neg hne, hq]
  rfl

/-- Without any, the references are filled after the queries. -/
theorem fillAll_eq_of_nil (hnil : chainsOf m (references scope.vars) = []) :
    fillAll m scope lookup = .ok (fill (references scope.vars)
      (l.write (Token.filled scope.vars lookup)
        (Chain.expression (Token.filled scope.vars lookup)))) := by
  have hpattern : m.pattern.getD [] = l.text := by rw [hm.pattern]; rfl
  have hq := fill_queriesOf hl hm (fun t ht hq => hf.values t ht (Or.inl hq)) l fun _ hs => hs
  unfold queriesOf at hq
  unfold fillAll
  simp only [hpattern, if_pos hnil, hq]
  rfl

include hord hwords hnames

/-- With the results at hand, the rest of the filling gives the values of the segments. -/
theorem fill_all {results : Pairs Text Text}
    (hr : evaluated scope (queriesOf m scope.vars lookup) (chainsOf m (references scope.vars)) =
      .ok results) :
    ∃ s, l.value scope lookup = .ok s ∧
      fill (references scope.vars) (showQuotes (fill results (l.write
        (Token.filled scope.vars lookup) (Chain.expression (Token.filled scope.vars lookup))))) = s ∧
      fill (references scope.vars) (fill results (l.write
        (Token.filled scope.vars lookup) (Chain.expression (Token.filled scope.vars lookup)))) = s := by
  obtain ⟨g, hg, hfill⟩ := fill_results hf hl hm hr hord
  have hval : l.value scope lookup = .ok (l.write (Token.value scope.vars lookup) g) :=
    Layout.value_eq_ok hg
  have hunquoted : Unquoted (l.write (Token.standing scope.vars lookup) g) := by
    have hno : ∀ w : Text, w ≠ [] → ('{' ∉ w ∧ ' ' ∉ w ∧ '}' ∉ w) →
        contains w (l.write (Token.value scope.vars lookup) g) = false →
        (∀ name, .token (.named name) ∈ l → contains w name = false) →
        contains w (l.write (Token.standing scope.vars lookup) g) = false := by
      intro w hne hw hv hn
      cases hc : contains w (l.write (Token.standing scope.vars lookup) g) with
      | false => rfl
      | true =>
        rcases contains_standing (a := []) hne hw hc with h | ⟨name, hm, h⟩
        · exact h.symm.trans hv
        · exact h.symm.trans (hn name hm)
    obtain ⟨h1, h2⟩ := hwords _ hval
    exact ⟨hno _ (by decide) (by decide) h1 fun name hn => (hnames name hn).1,
      hno _ (by decide) (by decide) h2 fun name hn => (hnames name hn).2⟩
  refine ⟨_, hval, ?_, ?_⟩
  · rw [hfill, showQuotes_unquoted hunquoted, fill_standing hf hl hg]
  · rw [hfill, fill_standing hf hl hg]

/-- The filling is what the segments stand for; it fails when a chain of theirs does. -/
theorem fillAll_eq_ok {s : Text} : fillAll m scope lookup = .ok s ↔
    l.value scope lookup = .ok s := by
  have hall := fun results => @fill_all _ l m scope lookup hf hl hm hord hwords hnames results
  by_cases hnil : chainsOf m (references scope.vars) = []
  · obtain ⟨s', hval, _, hfill⟩ := hall [] (by rw [hnil]; rfl)
    rw [fillAll_eq_of_nil hf hl hm hnil, hval, ← hfill]
    exact Iff.rfl
  · rw [fillAll_eq hf hl hm hnil]
    cases hev : evaluated scope (queriesOf m scope.vars lookup)
        (chainsOf m (references scope.vars)) with
    | ok results =>
      obtain ⟨s', hval, hfill, _⟩ := hall results hev
      rw [hval, ← hfill]
      exact Iff.rfl
    | error e =>
      refine iff_of_false (fun h => by cases h) fun hval => ?_
      -- Every chain has a value, so every result is there.
      have hok : ∃ results, evaluated scope (queriesOf m scope.vars lookup)
          (chainsOf m (references scope.vars)) = .ok results := by
        refine evaluated_ok fun p hp => ?_
        rcases expressionOf_chainsOf hf hl hm hp with ⟨c, hc, _, he⟩ | ⟨name, hn, hp1, he, hnone⟩
        · rw [he, inner_expression]
          exact Layout.value_ok hval hc
        · rw [he, inner_reference]
          exact ⟨[], hf.unknown name (Layout.proper_of_mem_tokens hl hn)
            (hp1 ▸ mem_filters_of_mem_chainsOf hm hp) hnone⟩
      obtain ⟨results, hok⟩ := hok
      rw [hev] at hok
      cases hok

end

/-! ## Patterns laid out -/

/-- A layout whose text is read as it is laid out: nothing is trimmed, nor is all of it quoted. -/
structure Written (l : Layout) : Prop where
  proper : ∀ seg ∈ l, seg.Proper
  trimmed : trim l.text = l.text
  nonempty : l.text ≠ []
  unquoted : isQuoted l.text = false

instance (l : Layout) : Decidable (Written l) :=
  decidable_of_iff
    ((∀ seg ∈ l, seg.Proper) ∧ trim l.text = l.text ∧ l.text ≠ [] ∧ isQuoted l.text = false)
    ⟨fun ⟨h1, h2, h3, h4⟩ => ⟨h1, h2, h3, h4⟩, fun ⟨h1, h2, h3, h4⟩ => ⟨h1, h2, h3, h4⟩⟩

section

variable {l before core after : Layout} (h : Ends l before core after)

include h

/-- The ends of a layout are filled with nothing. -/
theorem Ends.fits [Host] {scope : Filter.Scope} {lookup : Lookup} {filters : List Text}
    (hf : Fits scope lookup l filters) : Fits scope lookup core filters := by
  have htokens : ∀ t ∈ core.tokens, t ∈ l.tokens := by
    intro t ht
    obtain ⟨seg, hs, ht⟩ := List.mem_flatMap.1 ht
    exact Layout.mem_tokens (h.mem hs) ht
  exact {
    unknown := hf.unknown
    chains := fun c hc => hf.chains c (h.mem hc)
    names := hf.names
    values := fun t ht hw => hf.values t (htokens t ht) (hw.imp_right h.mem)
    results := fun c hc => hf.results c (h.mem hc)
    quotes := fun t ht => hf.quotes t (htokens t ht) }

theorem Ends.ordered_iff {vars : Pairs Text Text} {lookup : Lookup} {filters : List Text} :
    Ordered vars lookup l filters ↔ Ordered vars lookup core filters := by
  constructor
  · intro hord c hc
    obtain ⟨a, c', b, hsplit, hc', h'⟩ := hord c (h.mem hc)
    exact ⟨a, c', b, hsplit, h.mem_core hc' rfl, h'⟩
  · intro hord c hc
    obtain ⟨a, c', b, hsplit, hc', h'⟩ := hord c (h.mem_core hc rfl)
    exact ⟨a, c', b, hsplit, h.mem hc', h'⟩

/-- A layout with placeholders gives its core filled, between its ends, when that says more than the
static text. -/
theorem Ends.evaluate_eq [Host] (hl : Written l) {asXml : Bool}
    (hx : (compile l.text).pattern ≠ some Modifier.xmlPattern ∨ asXml = false) (subject : Subject)
    (context : Context) (lookup : Lookup) :
    (compile l.text).evaluate subject context lookup asXml =
      (fillAll (compile l.text) (context.scope subject) lookup).map fun s =>
        if saysMore (compile l.text) s then some (before.text ++ s ++ after.text) else none := by
  rw [compile_ends hl.proper h hl.trimmed hl.unquoted] at hx ⊢
  have hm := compiled_template (h.proper hl.proper) before.text after.text
  rw [evaluate_template hm.literal hm.pattern h.text_ne_nil
    (hx.imp_left fun hne e => hne (hm.pattern.trans (congrArg some e))) subject context lookup]
  exact congrArg (Except.map · _) (funext fun s => by rw [wrap_compileTemplate])

/-- The core of a layout is filled with what it stands for. -/
theorem Ends.evaluate_eq_ok [Host] (hl : Written l) {subject : Subject} {context : Context}
    {lookup : Lookup} {asXml : Bool}
    (hf : Fits (context.scope subject) lookup l (compile l.text).filters)
    (hord : Ordered (context.scope subject).vars lookup l (compile l.text).filters)
    (hwords : ∀ s, core.value (context.scope subject) lookup = .ok s → Unquoted s)
    (hnames : ∀ name, .token (.named name) ∈ l → Unquoted name)
    (hx : (compile l.text).pattern ≠ some Modifier.xmlPattern ∨ asXml = false)
    {out : Option Text} :
    (compile l.text).evaluate subject context lookup asXml = .ok out ↔
      ∃ s, core.value (context.scope subject) lookup = .ok s ∧
        out = if saysMore (compile l.text) s then some (before.text ++ s ++ after.text) else none := by
  have hcore : ∀ s, fillAll (compile l.text) (context.scope subject) lookup = .ok s ↔
      core.value (context.scope subject) lookup = .ok s := by
    intro s
    rw [compile_ends hl.proper h hl.trimmed hl.unquoted] at hf hord ⊢
    have hproper := h.proper hl.proper
    exact fillAll_eq_ok (h.fits hf) hproper (compiled_template hproper before.text after.text)
      (h.ordered_iff.1 hord) hwords fun name hn => hnames name (h.mem hn)
  rw [h.evaluate_eq hl hx]
  constructor
  · intro hout
    cases hfill : fillAll (compile l.text) (context.scope subject) lookup with
    | error e => rw [hfill] at hout; cases hout
    | ok s =>
      rw [hfill] at hout
      exact ⟨s, (hcore s).1 hfill, (Except.ok.inj hout).symm⟩
  · rintro ⟨s, hs, rfl⟩
    rw [(hcore s).2 hs]
    rfl

end

end Crosswalk.Template
