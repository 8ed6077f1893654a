import Crosswalk.Host.Bundled
import Crosswalk.Proofs.Template.Leaks
import Crosswalk.Proofs.Template.Static

/-!
# Segment by segment

A template that is filled gives what its segments stand for, in order, exactly if every expression
comes before the unknown names that it has as arguments:

    (compile l.text).evaluate … = .ok (some out) → (l.value … = .ok out ↔ Ordered …)
                                                                            (evaluate_layout)

Nothing is written only when no placeholder gives a text: with one that does, the filled text is
longer than the literal text and holds no brace, so it is not the static text
(`Ends.saysMore_core`).
-/

namespace Crosswalk.Template

open Text

/-! ## Layouts that speak -/

/-- A placeholder of the layout gives a text. -/
def Layout.Speaks [Host] (scope : Filter.Scope) (lookup : Lookup) (l : Layout) : Prop :=
  ∃ seg ∈ l, seg.isLiteral = false ∧ ∃ v, seg.value scope lookup = .ok v ∧ v ≠ []

theorem length_literalText_lt {l : Layout} {f : Token → Text} {g : Chain → Text}
    (h : ∃ seg ∈ l, seg.isLiteral = false ∧ seg.write f g ≠ []) :
    l.literalText.length < (l.write f g).length := by
  unfold Layout.literalText Layout.write
  rw [List.length_flatMap, List.length_flatMap]
  obtain ⟨seg, hs, hlit, hne⟩ := h
  refine List.sum_lt_sum _ _ (fun seg' _ => ?_) ⟨seg, hs, ?_⟩
  · cases seg' with
    | literal s => exact Nat.le_refl _
    | token t => exact Nat.zero_le _
    | chain c => exact Nat.zero_le _
  · cases seg with
    | literal s => cases hlit
    | token t => exact List.length_pos_iff.2 hne
    | chain c => exact List.length_pos_iff.2 hne

section

variable {scope : Filter.Scope} {lookup : Lookup} {l before core after : Layout}

theorem Ends.speaks_core [Host] (h : Ends l before core after) (hs : l.Speaks scope lookup) :
    core.Speaks scope lookup := by
  obtain ⟨seg, hs, hlit, hv⟩ := hs
  exact ⟨seg, h.mem_core hs hlit, hlit, hv⟩

/-- What a placeholder gives makes the layout longer than its literal text. -/
theorem Layout.Speaks.longer [Host] (hs : l.Speaks scope lookup) {s : Text}
    (h : l.value scope lookup = .ok s) : l.literalText.length < s.length := by
  obtain ⟨hc, rfl⟩ := Layout.value_eq_ok_iff.1 h
  obtain ⟨seg, hs, hlit, v, hv, hne⟩ := hs
  refine length_literalText_lt ⟨seg, hs, hlit, ?_⟩
  cases seg with
  | literal s => cases hlit
  | token t =>
    rw [← Except.ok.inj hv] at hne
    exact hne
  | chain c =>
    show c.got scope lookup ≠ []
    unfold Chain.got
    rw [show c.value scope lookup = .ok v from hv]
    exact hne

/-- A filled layout holds no brace. -/
theorem Fits.bare_layout [Host] {filters : List Text} (hf : Fits scope lookup l filters)
    (hl : ∀ seg ∈ l, seg.Proper) {s : Text} (h : l.value scope lookup = .ok s) : Bare s := by
  obtain ⟨hc, rfl⟩ := Layout.value_eq_ok_iff.1 h
  refine bare_flatMap fun seg hs => ?_
  cases seg with
  | literal s => exact hl _ hs
  | token t => exact hf.bare_value hs
  | chain c =>
    obtain ⟨r, hr⟩ := hc c hs
    show Bare (c.got scope lookup)
    unfold Chain.got
    rw [hr]
    exact hf.results c hs r hr

/-- A layout that speaks says more than its static text. -/
theorem Ends.saysMore_core [Host] (h : Ends l before core after) (hl : Written l)
    (hf : Fits scope lookup l (compile l.text).filters) (hs : core.Speaks scope lookup) {s : Text}
    (hv : core.value scope lookup = .ok s) : saysMore (compile l.text) s = true := by
  have hproper := h.proper hl.proper
  have hlonger := hs.longer hv
  have hne : s ≠ [] := List.ne_nil_of_length_pos (Nat.zero_lt_of_lt hlonger)
  have hstatic : s ≠ (compile l.text).staticText := by
    rw [compile_ends hl.proper h hl.trimmed hl.unquoted]
    rcases staticText_cases hproper (compiled_template hproper before.text after.text) with e | hb
    · rw [e]
      rintro rfl
      exact Nat.lt_irrefl _ hlonger
    · intro e
      rw [← e] at hb
      exact ((h.fits hf).bare_layout hproper hv).not_mem (by decide) hb
  unfold saysMore
  simp [hne, hstatic]

end

/-! ## Segments in order -/

/-- Literal text alone is written whenever there is a subject. -/
theorem evaluate_literals [Host] {l : Layout} (hl : Written l)
    (hlit : ∀ seg ∈ l, seg.isLiteral = true)
    (subject : Subject) (context : Context) (lookup : Lookup) (asXml : Bool) :
    l.value (context.scope subject) lookup = .ok l.text ∧
      (compile l.text).evaluate subject context lookup asXml =
        .ok (if subject.present then some l.text else none) := by
  constructor
  · have hno : ∀ c, Segment.chain c ∉ l := fun c hc => by cases hlit _ hc
    rw [Layout.value_eq_ok (g := fun _ => []) fun c hc => absurd hc (hno c), write_literals hlit]
  · rw [compile_literals hl.proper hlit hl.trimmed hl.nonempty hl.unquoted]
    rfl

section

variable [Host] {l : Layout} (hl : Written l) {subject : Subject} {context : Context}
  {lookup : Lookup} {asXml : Bool}
  (hf : Fits (context.scope subject) lookup l (compile l.text).filters)
  (hx : (compile l.text).pattern ≠ some Modifier.xmlPattern ∨ asXml = false)

include hl hf hx

/-- In order, what is written is what the segments stand for. -/
theorem evaluate_ordered (hord : Ordered (context.scope subject).vars lookup l (compile l.text).filters)
    (hwords : ∀ s, l.value (context.scope subject) lookup = .ok s → Unquoted s)
    (hnames : ∀ name, .token (.named name) ∈ l → Unquoted name) :
    (∀ out, (compile l.text).evaluate subject context lookup asXml = .ok (some out) →
      l.value (context.scope subject) lookup = .ok out) ∧
    ∀ s, l.value (context.scope subject) lookup = .ok s →
      ((compile l.text).evaluate subject context lookup asXml = .ok none ∨
        (compile l.text).evaluate subject context lookup asXml = .ok (some s)) ∧
      (l.Speaks (context.scope subject) lookup →
        (compile l.text).evaluate subject context lookup asXml = .ok (some s)) := by
  rcases exists_ends l with hlit | ⟨before, core, after, h⟩
  · have hsilent : ¬ l.Speaks (context.scope subject) lookup := by
      rintro ⟨seg, hs, hseg, _⟩
      rw [hlit seg hs] at hseg
      cases hseg
    obtain ⟨hvalue, heval⟩ := evaluate_literals hl hlit subject context lookup asXml
    rw [hvalue, heval]
    cases subject.present with
    | false => exact ⟨fun out h => by simp at h, fun s _ => ⟨Or.inl rfl, fun h => absurd h hsilent⟩⟩
    | true =>
      exact ⟨fun out h => by simpa using h,
        fun s h => ⟨Or.inr (by simpa using h), fun h => absurd h hsilent⟩⟩
  · have hcore : ∀ s, core.value (context.scope subject) lookup = .ok s → Unquoted s := by
      intro s hs
      obtain ⟨h1, h2⟩ := hwords _ (h.value_eq_ok.2 ⟨s, hs, rfl⟩)
      exact ⟨(not_contains_append (not_contains_append h1).1).2,
        (not_contains_append (not_contains_append h2).1).2⟩
    have heval := fun out => @Ends.evaluate_eq_ok l before core after h _ hl subject context lookup
      asXml hf hord hcore hnames hx out
    refine ⟨fun out hout => ?_, fun s hs => ⟨?_, fun hspeaks => ?_⟩⟩
    · obtain ⟨s, hs, e⟩ := (heval _).1 hout
      split at e
      · rw [Option.some.inj e]
        exact h.value_eq_ok.2 ⟨s, hs, rfl⟩
      · cases e
    · obtain ⟨s', hs', rfl⟩ := h.value_eq_ok.1 hs
      by_cases hmore : saysMore (compile l.text) s' = true
      · exact Or.inr ((heval _).2 ⟨s', hs', (if_pos hmore).symm⟩)
      · exact Or.inl ((heval _).2 ⟨s', hs', (if_neg hmore).symm⟩)
    · obtain ⟨s', hs', rfl⟩ := h.value_eq_ok.1 hs
      have hmore := h.saysMore_core hl hf (h.speaks_core hspeaks) hs'
      exact (heval _).2 ⟨s', hs', (if_pos hmore).symm⟩

/-- Out of order, what is written shows an expression of the template. -/
theorem evaluate_leaks (hleaks : Exposed (context.scope subject) lookup l)
    (hno : ¬ Ordered (context.scope subject).vars lookup l (compile l.text).filters) {out : Text}
    (hout : (compile l.text).evaluate subject context lookup asXml = .ok (some out)) :
    '{' ∈ out := by
  rcases exists_ends l with hlit | ⟨before, core, after, h⟩
  · exact absurd (fun c hc => by cases hlit _ hc) hno
  · rw [h.evaluate_eq hl hx] at hout
    cases hfill : fillAll (compile l.text) (context.scope subject) lookup with
    | error e => rw [hfill] at hout; cases hout
    | ok s =>
      have hproper := h.proper hl.proper
      have hs : '{' ∈ s := by
        rw [compile_ends hl.proper h hl.trimmed hl.unquoted] at hf hno hfill
        exact fillAll_leaks (h.fits hf) hproper (compiled_template hproper before.text after.text)
          (h.exposed hleaks) (fun hord => hno (h.ordered_iff.2 hord)) hfill
      rw [hfill] at hout
      have hout := Except.ok.inj hout
      dsimp only at hout
      split at hout
      · rw [← Option.some.inj hout]
        simp [hs]
      · cases hout

/-- **A pattern is filled segment by segment**, exactly if no unknown name comes before an expression
that has it as an argument: then what is written is what the segments stand for, in order, and nothing
is written only when no placeholder gives a text. Otherwise what is written shows the template. -/
theorem evaluate_layout (hwords : ∀ s, l.value (context.scope subject) lookup = .ok s → Unquoted s)
    (hnames : ∀ name, .token (.named name) ∈ l → Unquoted name) :
    (Ordered (context.scope subject).vars lookup l (compile l.text).filters →
      (∀ out, (compile l.text).evaluate subject context lookup asXml = .ok (some out) →
        l.value (context.scope subject) lookup = .ok out) ∧
      ∀ s, l.value (context.scope subject) lookup = .ok s →
        ((compile l.text).evaluate subject context lookup asXml = .ok none ∨
          (compile l.text).evaluate subject context lookup asXml = .ok (some s)) ∧
        (l.Speaks (context.scope subject) lookup →
          (compile l.text).evaluate subject context lookup asXml = .ok (some s))) ∧
    (Exposed (context.scope subject) lookup l →
      ¬ Ordered (context.scope subject).vars lookup l (compile l.text).filters →
      ∀ out, (compile l.text).evaluate subject context lookup asXml = .ok (some out) →
        '{' ∈ out ∧ l.value (context.scope subject) lookup ≠ .ok out) := by
  refine ⟨fun hord => evaluate_ordered hl hf hx hord hwords hnames, fun hleaks hno out hout => ?_⟩
  have hbrace := evaluate_leaks hl hf hx hleaks hno hout
  exact ⟨hbrace, fun hv => (hf.bare_layout hl.proper hv).not_mem (by decide) hbrace⟩

end

/-- `On {{ year }}: {{ implode('/', {{ place }}, '{{title}}') }}` -/
def titleLayout : Layout :=
  [.literal "On ", .token (.named "year"), .literal ": ",
    .chain ⟨"implode('/', ", [(.named "place", ", '"), (.query "title", "')")]⟩]

/-- A document whose queries all find one title. -/
def titleLookup : Lookup := some fun _ => "Book"

/-- With a known year and an unknown place. -/
def titleContext : Context := ⟨[("year", some "1999")], []⟩

theorem filters_titleLayout : (compile titleLayout.text).filters =
    [reference "year",
      "\x7b\x7b implode('/', \x7b\x7b place \x7d\x7d, '\x7b\x7btitle\x7d\x7d') \x7d\x7d"] := by
  decide +kernel

theorem fits_titleLayout : Fits (titleContext.scope .none) titleLookup titleLayout
    (compile titleLayout.text).filters := by
  have hchain : ∀ c, .chain c ∈ titleLayout →
      c = ⟨"implode('/', ", [(.named "place", ", '"), (.query "title", "')")]⟩ := by
    intro c hc
    simpa [titleLayout] using hc
  rw [filters_titleLayout]
  exact {
    unknown := fun name hn hm hnone => by
      rcases List.mem_cons.1 hm with e | hm
      · rw [reference_injective e] at hnone
        exact absurd hnone (by decide)
      · have := congrArg (inner 3) (List.mem_singleton.1 hm)
        rw [inner_reference] at this
        rw [this] at hn
        exact absurd (hn.word '\x7b' (by decide)) (by decide)
    chains := fun c hc => by
      rw [hchain c hc]
      decide
    names := by decide
    values := fun t ht _ => by
      revert t
      decide +kernel
    results := fun c hc r hr => by
      rw [hchain c hc] at hr
      have : Chain.value (titleContext.scope .none) titleLookup
          ⟨"implode('/', ", [(.named "place", ", '"), (.query "title", "')")]⟩ = .ok "/Book" := by
        decide +kernel
      rw [this] at hr
      exact Except.ok.inj hr ▸ (by decide)
    quotes := by decide +kernel }

theorem ordered_titleLayout : Ordered (titleContext.scope .none).vars titleLookup titleLayout
    (compile titleLayout.text).filters := by
  intro c hc
  have hchain : c = ⟨"implode('/', ", [(.named "place", ", '"), (.query "title", "')")]⟩ := by
    simpa [titleLayout] using hc
  refine ⟨[reference "year"], c, [], by rw [filters_titleLayout, hchain]; rfl, hc, rfl, ?_⟩
  rintro e he ⟨name, hn, rfl, _⟩
  rw [hchain] at hn
  have : name = ("place" : Text) := by simpa [Chain.tokens] using hn
  rw [this] at he
  exact absurd he (by decide)

/-- A reference that stands before an expression that has it as an argument. -/
def leakingLayout : Layout :=
  [.chain ⟨"value|upper", []⟩, .token (.named "year"), .literal ": ",
    .chain ⟨"implode('/', ", [(.named "year", ", 'x')")]⟩]

/-- The value `abc`, without further variables. -/
def leakingScope : Filter.Scope := Context.scope ⟨[], []⟩ (.ofValue (.str "abc"))

theorem filters_leakingLayout : (compile leakingLayout.text).filters =
    (["\x7b\x7b value|upper \x7d\x7d", reference "year",
      "\x7b\x7b implode('/', \x7b\x7b year \x7d\x7d, 'x') \x7d\x7d"] : List Text) := by
  decide +kernel

theorem chain_leakingLayout {c : Chain} (hc : .chain c ∈ leakingLayout) :
    c = ⟨"value|upper", []⟩ ∨ c = ⟨"implode('/', ", [(.named "year", ", 'x')")]⟩ := by
  simpa [leakingLayout] using hc

theorem fits_leakingLayout : Fits leakingScope none leakingLayout
    (compile leakingLayout.text).filters where
  unknown := fun name hn hm hnone => by
    have hword : ∀ e : Text, e.all isWord = false → inner 3 (reference name) ≠ e := by
      rintro e he rfl
      rw [inner_reference, List.all_eq_true.2 hn.word] at he
      cases he
    rw [filters_leakingLayout] at hm
    simp only [List.mem_cons, List.not_mem_nil, or_false] at hm
    rcases hm with e | e | e
    · exact absurd (congrArg (inner 3) e) (hword _ (by decide +kernel))
    · rw [reference_injective e]
      decide +kernel
    · exact absurd (congrArg (inner 3) e) (hword _ (by decide +kernel))
  chains := fun c hc => by
    rcases chain_leakingLayout hc with rfl | rfl
    · decide +kernel
    · decide +kernel
  names := by decide +kernel
  values := fun t ht _ => by
    revert t
    decide +kernel
  results := fun c hc r hr => by
    rcases chain_leakingLayout hc with rfl | rfl
    · have : Chain.value leakingScope none ⟨"value|upper", []⟩ = .ok "ABC" := by decide +kernel
      rw [this] at hr
      exact Except.ok.inj hr ▸ (by decide)
    · have : Chain.value leakingScope none ⟨"implode('/', ", [(.named "year", ", 'x')")]⟩ =
          .ok "/x" := by
        decide +kernel
      rw [this] at hr
      exact Except.ok.inj hr ▸ (by decide)
  quotes := by decide +kernel

theorem exposed_leakingLayout : Exposed leakingScope none leakingLayout where
  opened := fun c hc hne => by
    rcases chain_leakingLayout hc with rfl | rfl
    · exact absurd rfl hne
    · exact ⟨"implode", "'/', ", rfl, by decide⟩
  names := by decide +kernel
  distinct := fun c c' hc hc' f _ h => by
    rcases chain_leakingLayout hc with rfl | rfl
    · rfl
    · rcases chain_leakingLayout hc' with rfl | rfl
      · exact absurd (List.cons.inj h).1 (by decide)
      · exact h

theorem not_ordered_leakingLayout : ¬ Ordered leakingScope.vars none leakingLayout
    (compile leakingLayout.text).filters := by
  intro hord
  obtain ⟨a, c', b, hsplit, hc', he, hno⟩ :=
    hord ⟨"implode('/', ", [(.named "year", ", 'x')")]⟩ (by decide)
  rcases chain_leakingLayout hc' with rfl | rfl
  · exact absurd he (by decide +kernel)
  · rw [filters_leakingLayout] at hsplit
    have hyear : reference "year" ∈ a := by
      match a, hsplit with
      | [], hsplit => exact absurd (List.cons.inj hsplit).1 (by decide +kernel)
      | [_], hsplit =>
        exact absurd (List.cons.inj (List.cons.inj hsplit).2).1 (by decide +kernel)
      | _ :: e :: a, hsplit =>
        rw [(List.cons.inj (List.cons.inj hsplit).2).1]
        simp
    exact hno _ hyear ⟨"year", by decide, rfl, by decide +kernel⟩

theorem evaluate_layout_title :
    ((compile titleLayout.text).evaluate .none titleContext titleLookup false =
        .ok (some "On 1999: /Book") ∧
      titleLayout.value (titleContext.scope .none) titleLookup = .ok "On 1999: /Book") ∧
    ∀ out, (compile leakingLayout.text).evaluate (.ofValue (.str "abc")) ⟨[], []⟩ none false =
      .ok (some out) → '{' ∈ out := by
  have heval : (compile titleLayout.text).evaluate .none titleContext titleLookup false =
      .ok (some "On 1999: /Book") := by
    decide +kernel
  have hvalue : titleLayout.value (titleContext.scope .none) titleLookup = .ok "On 1999: /Book" := by
    decide +kernel
  refine ⟨⟨heval, ((evaluate_layout (by decide +kernel) fits_titleLayout (Or.inr rfl)
    (fun s hs => ?_) (fun name hn => ?_)).1 ordered_titleLayout).1 _ heval⟩, fun out hout =>
    ((evaluate_layout (by decide +kernel) fits_leakingLayout (Or.inr rfl)
      (fun s hs => ?_) (fun name hn => ?_)).2 exposed_leakingLayout not_ordered_leakingLayout
        out hout).1⟩
  · rw [hvalue] at hs
    exact Except.ok.inj hs ▸ (by decide)
  · have : name = ("year" : Text) := by simpa [titleLayout] using hn
    rw [this]
    decide
  · have : leakingLayout.value leakingScope none = .ok "ABC: /x" := by decide +kernel
    rw [show leakingLayout.value leakingScope none = .ok s from hs] at this
    exact Except.ok.inj this ▸ (by decide)
  · have : name = ("year" : Text) := by simpa [leakingLayout] using hn
    rw [this]
    decide

/-- While its name is unknown, the expression is written as it stands in the pattern. -/
theorem leaking_reference :
    Written leakingLayout ∧
    (compile leakingLayout.text).evaluate (.ofValue (.str "abc")) ⟨[], []⟩ none false =
      .ok (some "ABC: \x7b\x7b implode('/', , 'x') \x7d\x7d") ∧
    leakingLayout.value (Context.scope ⟨[], []⟩ (.ofValue (.str "abc"))) none = .ok "ABC: /x" := by
  refine ⟨?_, ?_, ?_⟩
  · decide +kernel
  · decide +kernel
  · decide +kernel

end Crosswalk.Template
