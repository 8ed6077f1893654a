import Crosswalk.Host.Bundled
import Crosswalk.Proofs.Template.Filling

/-!
# Static text

The static text is found by taking the placeholders out of the template, one after another. An
expression that lost a token by then stays in it:

    staticText = literalText ∨ '{' ∈ staticText                               (staticText_cases)
    staticText = literalText, when no reference comes before an expression around it
                                                                          (staticText_template)

A layout whose placeholders all give the empty text is filled with its literal text alone, which is
written unless the static text says the same (`evaluate_emptied`).
-/

namespace Crosswalk.Template

open Text

/-! ## Literal text -/

/-- The text of a layout without its placeholders. -/
def Layout.literalText (l : Layout) : Text := l.write (fun _ => []) fun _ => []

/-- Every placeholder of the layout gives the empty text. -/
structure Emptied [Host] (scope : Filter.Scope) (lookup : Lookup) (l : Layout) : Prop where
  tokens : ∀ t ∈ l.tokens, t.isQueried = true ∨ .token t ∈ l → t.value scope.vars lookup = []
  chains : ∀ c, .chain c ∈ l → c.value scope lookup = .ok []

/-- Every expression comes before the references that it has as arguments. -/
def Apart (l : Layout) (filters : List Text) : Prop :=
  ∀ c, .chain c ∈ l → ∃ a b, filters = a ++ c.expression Token.text :: b ∧
    ∀ t ∈ c.tokens, t.text ∉ a

section

variable {scope : Filter.Scope} {lookup : Lookup} {l before core after : Layout}

theorem Apart.ordered {filters : List Text} (h : Apart l filters) (vars : Pairs Text Text)
    (lookup : Lookup) : Ordered vars lookup l filters := by
  intro c hc
  obtain ⟨a, b, hsplit, hno⟩ := h c hc
  refine ⟨a, c, b, hsplit, hc, rfl, ?_⟩
  rintro e he ⟨name, hn, rfl, _⟩
  rw [← Token.text_named] at he
  exact hno _ hn he

theorem Emptied.fits [Host] {filters : List Text} (he : Emptied scope lookup l)
    (hp : Plain scope l filters) : Fits scope lookup l filters where
  toPlain := hp
  values := fun t ht hw => by
    rw [he.tokens t ht hw]
    exact bare_nil
  results := fun c hc r hr => by
    rw [he.chains c hc] at hr
    rw [← Except.ok.inj hr]
    exact bare_nil
  quotes := fun t ht hq => by
    rw [he.tokens t ht (Or.inl hq)]
    rfl

/-- The core of an emptied layout stands for its literal text. -/
theorem Emptied.core_value [Host] (h : Ends l before core after) (he : Emptied scope lookup l) :
    core.value scope lookup = .ok core.literalText := by
  rw [Layout.value_eq_ok (g := fun _ => []) fun c hc => he.chains c (h.mem hc)]
  refine congrArg Except.ok (Layout.write_congr (fun t ht => ?_) fun _ _ => rfl)
  have ht := h.mem ht
  exact he.tokens t (Layout.mem_tokens ht (List.mem_singleton.2 rfl)) (Or.inr ht)

end

/-! ## The static text of a template -/

/-- Every word of a template with the empty text. -/
def removals (m : Modifier) : Pairs Text Text :=
  (m.filters ++ m.replace ++ reservedTokens).map fun e => (e, [])

theorem staticText_eq_fill (m : Modifier) : m.staticText = fill (removals m) (m.pattern.getD []) := by
  unfold Modifier.staticText removals fill
  rw [List.foldl_map]

theorem keys_removals (m : Modifier) :
    Pairs.keys (removals m) = m.filters ++ m.replace ++ reservedTokens := by
  unfold Pairs.keys removals
  rw [List.map_map]
  exact List.map_id _

theorem removals_eq_nil {m : Modifier} {p : Text × Text} (hp : p ∈ removals m) : p.2 = [] := by
  obtain ⟨e, _, rfl⟩ := List.mem_map.1 hp
  rfl

/-- A word of a template is removed. -/
theorem look_removals {m : Modifier} {e : Text} (h : e ∈ m.filters ∨ e ∈ m.replace) :
    look (removals m) e = [] := by
  have hkey : e ∈ Pairs.keys (removals m) := by
    rw [keys_removals]
    exact List.mem_append_left _ (List.mem_append.2 h)
  obtain ⟨v, hv⟩ := Option.isSome_iff_exists.1 (Pairs.get?_isSome.2 hkey)
  unfold look
  rw [hv]
  exact removals_eq_nil (Pairs.mem_of_get? hv)

section

variable {l : Layout} {m : Modifier} (hl : ∀ seg ∈ l, seg.Proper) (hm : Compiled l m)

include hm

/-- A filter is an expression of the layout or the text of one of its tokens. -/
theorem filter_cases {e : Text} (h : e ∈ m.filters) :
    (∃ c, .chain c ∈ l ∧ e = c.expression Token.text) ∨ ∃ t ∈ l.tokens, e = t.text := by
  rw [← List.map_fst_zip (Nat.le_of_eq hm.flags.symm)] at h
  obtain ⟨p, hp, rfl⟩ := List.mem_map.1 h
  rcases hm.flagged p hp with ⟨c, hc, rfl⟩ | ⟨t, ht, _, rfl⟩
  · exact Or.inl ⟨c, hc, rfl⟩
  · exact Or.inr ⟨t, ht, rfl⟩

include hl

theorem isKey_removals {p : Text × Text} (hp : p ∈ removals m) : IsKey p.1 := by
  obtain ⟨e, he, rfl⟩ := List.mem_map.1 hp
  rw [List.append_assoc, List.mem_append, List.mem_append] at he
  rcases he with he | he | he
  · rcases filter_cases hm he with ⟨c, hc, rfl⟩ | ⟨t, ht, rfl⟩
    · rw [Chain.expression_eq_braced]
      refine ⟨_, Chain.Proper.paired_inside (hl _ hc) fun t ht => ?_, rfl⟩
      have htp := (hl _ hc).tokens t ht
      exact Filled.paired (f := Token.text) htp (Or.inl rfl)
    · exact (Layout.proper_of_mem_tokens hl ht).isKey
  · obtain ⟨t, ht, _, rfl⟩ := (hm.queried e).1 he
    exact (Layout.proper_of_mem_tokens hl ht).isKey
  · obtain ⟨name, hn, rfl⟩ := reserved_eq he
    exact isKey_reference hn.bare

/-- The rounds take away every token, and every expression that is whole when its round comes. -/
theorem staticText_eq_write : m.staticText = l.write (fun _ => []) fun c =>
    (c.replaced? (removals m) Token.text).getD
      (c.expression fun t => look (removals m) t.text) := by
  have hempty : ∀ {c : Chain} {f : Token → Text} {v : Text},
      c.replaced? (removals m) f = some v → v = [] := by
    intro c f v h
    obtain ⟨p, hp, e⟩ := Chain.mem_of_replaced? h
    rw [← e, removals_eq_nil hp]
  have hfill := fill_rounds hl (.first (f := Token.text) (fun p hp => isKey_removals hl hm hp)
    (fun _ _ => Or.inl rfl)
    (fun _ _ _ v hget => by
      rw [show v = [] from removals_eq_nil (Pairs.mem_of_get? hget)]
      exact bare_nil)
    fun c _ v h => by
      rw [hempty h]
      exact bare_nil)
  rw [staticText_eq_fill, hm.pattern]
  refine hfill.trans (Layout.write_congr (fun t ht => ?_) fun c hc => ?_)
  · cases hq : t.isQueried with
    | true =>
      have htl := Layout.mem_tokens ht (List.mem_singleton.2 rfl)
      exact look_removals (Or.inr ((hm.queried _).2 ⟨t, htl, hq, rfl⟩))
    | false => exact look_removals (Or.inl (hm.alone t ht hq))
  · rw [Option.none_or]

/-- **The static text** is the literal text, unless a part of an expression is left in it. -/
theorem staticText_cases : m.staticText = l.literalText ∨ '{' ∈ m.staticText := by
  rw [staticText_eq_write hl hm]
  by_cases h : ∀ c, .chain c ∈ l → c.replaced? (removals m) Token.text ≠ none
  · refine Or.inl (Layout.write_congr (fun _ _ => rfl) fun c hc => ?_)
    obtain ⟨v, hv⟩ := Option.ne_none_iff_exists'.1 (h c hc)
    obtain ⟨p, hp, e⟩ := Chain.mem_of_replaced? hv
    rw [hv, ← e, removals_eq_nil hp]
    rfl
  · simp only [not_forall, not_not] at h
    obtain ⟨c, hc, hnone⟩ := h
    refine Or.inr (List.mem_flatMap.2 ⟨_, hc, ?_⟩)
    show '{' ∈ (c.replaced? (removals m) Token.text).getD _
    rw [hnone]
    exact List.mem_cons_self

/-- Nothing is left when every expression is still whole in its round. -/
theorem staticText_template (ha : Apart l m.filters) : m.staticText = l.literalText := by
  rw [staticText_eq_write hl hm]
  refine Layout.write_congr (fun _ _ => rfl) fun c hc => ?_
  obtain ⟨a, b, hsplit, hno⟩ := ha c hc
  have hrem : removals m = a.map (fun e => (e, [])) ++ (c.expression Token.text, []) ::
      (b ++ m.replace ++ reservedTokens).map fun e => (e, []) := by
    unfold removals
    rw [hsplit]
    simp
  have hget := Chain.replaced?_eq_get? (c := c) (f := Token.text) (q := (c.expression Token.text, []))
    (a := a.map fun e => (e, [])) (b := (b ++ m.replace ++ reservedTokens).map fun e => (e, [])) rfl
    (fun p hp t ht e => by
      obtain ⟨e', he', rfl⟩ := List.mem_map.1 hp
      exact hno t ht (e ▸ he'))
  rw [← hrem] at hget
  have hkey : c.expression Token.text ∈ Pairs.keys (removals m) := by
    rw [keys_removals, List.append_assoc]
    exact List.mem_append_left _ (hm.chains c hc)
  obtain ⟨v, hv⟩ := Option.isSome_iff_exists.1 (Pairs.get?_isSome.2 hkey)
  rw [hget, hv, show v = [] from removals_eq_nil (Pairs.mem_of_get? hv)]
  rfl

end

/-! ## What is written of an emptied layout -/

theorem Ends.literalText_eq {l before core after : Layout} (h : Ends l before core after) :
    before.text ++ core.literalText ++ after.text = l.literalText :=
  (h.write_eq _ _).symm

/-- **Static text alone.** When every placeholder gives the empty text, nothing is written exactly if
no literal text stands between them, or if this text is not blank and is the static text. -/
theorem evaluate_emptied [Host] {l before core after : Layout} (hl : Written l)
    (h : Ends l before core after) {subject : Subject} {context : Context} {lookup : Lookup}
    {asXml : Bool} (he : Emptied (context.scope subject) lookup l)
    (hp : Plain (context.scope subject) l (compile l.text).filters)
    (hord : Ordered (context.scope subject).vars lookup l (compile l.text).filters)
    (hwords : Unquoted core.literalText)
    (hnames : ∀ name, .token (.named name) ∈ l → Unquoted name)
    (hx : (compile l.text).pattern ≠ some Modifier.xmlPattern ∨ asXml = false) :
    (compile l.text).evaluate subject context lookup asXml =
      .ok (if core.literalText = [] ∨
          isBlankText core.literalText = false ∧ (compile l.text).staticText = core.literalText
        then none else some l.literalText) ∧
    ((compile l.text).staticText = core.literalText ∨ '{' ∈ (compile l.text).staticText) ∧
    (Apart core (compile l.text).filters → (compile l.text).staticText = core.literalText) := by
  have hcore := Emptied.core_value h he
  have heval := (h.evaluate_eq_ok hl (he.fits hp) hord
    (fun s hs => by rwa [← Except.ok.inj (hcore.symm.trans hs)]) hnames hx).2
    ⟨_, hcore, rfl⟩
  refine ⟨heval.trans (congrArg Except.ok ?_), ?_, fun ha => ?_⟩
  · rw [h.literalText_eq]
    have hmore : saysMore (compile l.text) core.literalText = true ↔
        ¬ (core.literalText = [] ∨ isBlankText core.literalText = false ∧
          (compile l.text).staticText = core.literalText) := by
      unfold saysMore
      by_cases hs : (compile l.text).staticText = core.literalText
      · rw [hs]
        simp
      · simp [hs, Ne.symm hs]
    by_cases hm : saysMore (compile l.text) core.literalText = true
    · rw [if_pos hm, if_neg (hmore.1 hm)]
    · rw [if_neg hm, if_pos (Decidable.of_not_not fun h => hm (hmore.2 h))]
  · rw [compile_ends hl.proper h hl.trimmed hl.unquoted]
    exact staticText_cases (h.proper hl.proper)
      (compiled_template (h.proper hl.proper) before.text after.text)
  · rw [compile_ends hl.proper h hl.trimmed hl.unquoted] at ha ⊢
    exact staticText_template (h.proper hl.proper)
      (compiled_template (h.proper hl.proper) before.text after.text) ha

/-- `<{{ a }}: {{ value|upper }}>` -/
def labelLayout : Layout :=
  [.literal "<", .token (.named "a"), .literal ": ", .chain ⟨"value|upper", []⟩, .literal ">"]

theorem evaluate_emptied_label :
    (compile labelLayout.text).evaluate .none ⟨[], []⟩ none false = .ok none := by
  have hends : Ends labelLayout [.literal "<"]
      [.token (.named "a"), .literal ": ", .chain ⟨"value|upper", []⟩] [.literal ">"] :=
    ⟨rfl, by decide, by decide, ⟨.token (.named "a"), _, rfl, rfl⟩,
      ⟨[.token (.named "a"), .literal ": "], .chain ⟨"value|upper", []⟩, rfl, rfl⟩⟩
  have hfilters : (compile labelLayout.text).filters =
      [reference "a", "\x7b\x7b value|upper \x7d\x7d"] := by
    decide +kernel
  have hchain : ∀ c, .chain c ∈ labelLayout → c = ⟨"value|upper", []⟩ := by
    intro c hc
    simpa [labelLayout] using hc
  have hname : ∀ name, .token (.named name) ∈ labelLayout → name = ("a" : Text) := by
    intro name hn
    simpa [labelLayout] using hn
  have he : Emptied (Context.scope ⟨[], []⟩ .none) none labelLayout := {
    tokens := fun t ht _ => by
      revert t
      decide +kernel
    chains := fun c hc => by
      rw [hchain c hc]
      decide +kernel }
  have hapart : Apart labelLayout (compile labelLayout.text).filters := by
    intro c hc
    rw [hfilters, hchain c hc]
    exact ⟨[reference "a"], [], rfl, fun t ht => absurd ht List.not_mem_nil⟩
  have hp : Plain (Context.scope ⟨[], []⟩ .none) labelLayout (compile labelLayout.text).filters := {
    unknown := fun name hn hm hnone => by
      rw [hfilters] at hm
      rcases List.mem_cons.1 hm with e | hm
      · rw [reference_injective e] at hn hnone ⊢
        exact Filter.evaluate_unknown hn.nonempty hn.word (by decide) hnone
      · have := congrArg (inner 3) (List.mem_singleton.1 hm)
        rw [inner_reference] at this
        rw [this] at hn
        exact absurd (hn.word '|' (by decide)) (by decide)
    chains := fun c _ => rfl
    names := by decide }
  have heval := (evaluate_emptied (by decide +kernel) hends he hp (hapart.ordered _ _) (by decide)
    (fun name hn => by rw [hname name hn]; decide)
    (Or.inr (rfl : false = false))).1
  rw [heval, if_pos (Or.inr ⟨by decide +kernel, by decide +kernel⟩)]

/-- `<{{ a }} {{ b }}>` -/
def blankLayout : Layout :=
  [.literal "<", .token (.named "a"), .literal " ", .token (.named "b"), .literal ">"]

/-- A blank between two empty variables is written, and the ends with it. -/
theorem blank_alone : Written blankLayout ∧
    Emptied (Context.scope ⟨[("a", some []), ("b", some [])], []⟩ .none) none blankLayout ∧
    (compile blankLayout.text).evaluate .none ⟨[("a", some []), ("b", some [])], []⟩ none false =
      .ok (some "< >") := by
  refine ⟨by decide +kernel, ⟨fun t ht _ => ?_, fun c hc => ?_⟩, by decide +kernel⟩
  · revert t
    decide +kernel
  · simp [blankLayout] at hc

end Crosswalk.Template
