import Crosswalk.Proofs.Merge
import Crosswalk.Proofs.Template.Static

/-!
# Layouts of known names

A layout of literal texts and names, where every name stands for a text without braces, gives what
its segments stand for: there is no expression to evaluate, and no round reads what another one
wrote (`KnownNames.evaluate_eq`).

Its text grows with the texts that its names stand for, past the static text as soon as one of them
is not empty (`KnownNames.evaluate_longer`).
-/

namespace Crosswalk.Template

open Text

/-! ## Names that are known -/

/-- Every placeholder is a name that stands for a text without braces. -/
structure KnownNames (vars : Pairs Text Text) (l : Layout) : Prop where
  names : ∀ q ∈ vars, Bare q.1
  placeholders : ∀ seg ∈ l, seg.isLiteral = false →
    ∃ name s, seg = .token (.named name) ∧ Token.isReserved (.named name) = false ∧
      Pairs.get? name vars = some s ∧ Bare s

/-- A name that stands for a text without braces. -/
def Segment.isKnown (vars : Pairs Text Text) : Segment → Bool
  | .token (.named name) =>
    !Token.isReserved (.named name) && (Pairs.get? name vars).any fun s => decide (Bare s)
  | _ => false

theorem Segment.isKnown_iff {vars : Pairs Text Text} {seg : Segment} : seg.isKnown vars = true ↔
    ∃ name s, seg = .token (.named name) ∧ Token.isReserved (.named name) = false ∧
      Pairs.get? name vars = some s ∧ Bare s := by
  constructor
  · intro h
    cases seg with
    | literal s => cases h
    | chain c => cases h
    | token t =>
      cases t with
      | query path => cases h
      | named name =>
        obtain ⟨hr, hb⟩ := Bool.and_eq_true_iff.1 h
        cases hget : Pairs.get? name vars with
        | none => rw [hget] at hb; cases hb
        | some s =>
          rw [hget] at hb
          exact ⟨name, s, rfl, by simpa using hr, hget, of_decide_eq_true hb⟩
  · rintro ⟨name, s, rfl, hr, hget, hb⟩
    show (!_ && (Pairs.get? name vars).any _) = true
    rw [hr, hget]
    exact decide_eq_true hb

instance (vars : Pairs Text Text) (l : Layout) : Decidable (KnownNames vars l) :=
  decidable_of_iff
    ((∀ q ∈ vars, Bare q.1) ∧ ∀ seg ∈ l, seg.isLiteral = false → seg.isKnown vars = true)
    ⟨fun ⟨h1, h2⟩ => ⟨h1, fun seg hs hlit => Segment.isKnown_iff.1 (h2 seg hs hlit)⟩,
      fun ⟨h1, h2⟩ => ⟨h1, fun seg hs hlit => Segment.isKnown_iff.2 (h2 seg hs hlit)⟩⟩

section

variable {vars : Pairs Text Text} {l : Layout} (hn : KnownNames vars l)

include hn

theorem KnownNames.chain_notMem (c : Chain) : .chain c ∉ l := by
  intro hc
  obtain ⟨name, s, e, _⟩ := hn.placeholders _ hc rfl
  cases e

theorem KnownNames.token_eq {t : Token} (ht : t ∈ l.tokens) :
    ∃ name s, t = .named name ∧ Token.isReserved (.named name) = false ∧
      Pairs.get? name vars = some s ∧ Bare s := by
  obtain ⟨seg, hs, ht⟩ := List.mem_flatMap.1 ht
  cases hlit : seg.isLiteral with
  | true =>
    cases seg with
    | literal s => cases ht
    | token t => cases hlit
    | chain c => cases hlit
  | false =>
    obtain ⟨name, s, rfl, hr, hget, hb⟩ := hn.placeholders seg hs hlit
    exact ⟨name, s, List.mem_singleton.1 ht, hr, hget, hb⟩

theorem KnownNames.value_eq {t : Token} (ht : t ∈ l.tokens) (lookup : Lookup) :
    t.isQueried = false ∧ Pairs.get? t.text (references vars) = some (t.value vars lookup) ∧
      Bare (t.value vars lookup) := by
  obtain ⟨name, s, rfl, hr, hget, hb⟩ := hn.token_eq ht
  have hv : Token.value vars lookup (.named name) = s := by
    show (Pairs.get? name vars).getD [] = s
    rw [hget]
    rfl
  rw [Token.text_named, get?_references, hget, hv]
  exact ⟨hr, rfl, hb⟩

end

section

variable {scope : Filter.Scope} {l : Layout} (hn : KnownNames scope.vars l)

include hn

section

variable {m : Modifier} (hm : Compiled l m)

include hm

/-- What would be evaluated is a known name. -/
theorem KnownNames.known {e : Text} (he : e ∈ m.filters) :
    Pairs.get? e (references scope.vars) ≠ none := by
  rcases filter_cases hm he with ⟨c, hc, _⟩ | ⟨t, ht, rfl⟩
  · exact absurd hc (hn.chain_notMem c)
  · rw [(hn.value_eq ht none).2.1]
    exact Option.some_ne_none _

theorem KnownNames.fits [Host] (lookup : Lookup) : Fits scope lookup l m.filters where
  unknown := fun name _ he hnone =>
    absurd ((get?_references scope.vars name).trans hnone) (hn.known hm he)
  chains := fun c hc => absurd hc (hn.chain_notMem c)
  names := hn.names
  values := fun t ht _ => (hn.value_eq ht lookup).2.2
  results := fun c hc => absurd hc (hn.chain_notMem c)
  quotes := fun t ht hq => by
    rw [(hn.value_eq ht lookup).1] at hq
    cases hq

theorem KnownNames.chainsOf_eq : chainsOf m (references scope.vars) = [] :=
  List.eq_nil_iff_forall_not_mem.2 fun _ hp =>
    hn.known hm (mem_filters_of_mem_chainsOf hm hp) ((mem_chainsOf hm).1 hp).2

theorem KnownNames.fillAll_eq [Host] (hl : ∀ seg ∈ l, seg.Proper) (lookup : Lookup) :
    fillAll m scope lookup = .ok (l.write (Token.value scope.vars lookup) fun _ => []) := by
  rw [fillAll_eq_of_nil (hn.fits hm lookup) hl hm (hn.chainsOf_eq hm),
    ← fill_standing (hn.fits hm lookup) hl fun c hc => absurd hc (hn.chain_notMem c)]
  refine congrArg (fun s => Except.ok (fill _ s)) (Layout.write_congr (fun t ht => ?_) fun c hc =>
    absurd hc (hn.chain_notMem c))
  obtain ⟨hq, hget, _⟩ := hn.value_eq (Layout.mem_tokens ht (List.mem_singleton.2 rfl)) lookup
  unfold Token.filled Token.standing
  rw [hq, hget, if_neg Bool.false_ne_true, if_pos ⟨rfl, Option.some_ne_none _⟩]

end

theorem Ends.named {before core after : Layout} (h : Ends l before core after) :
    KnownNames scope.vars core :=
  ⟨hn.names, fun seg hs => hn.placeholders seg (h.mem hs)⟩

end

/-! ## Other variables -/

section

variable {vs vs' : Variables} {p : Text}

theorem texts_without (p : Text) (vs : Variables) :
    Variables.texts (Pairs.without p vs) = Pairs.without p vs.texts := by
  unfold Variables.texts Pairs.without
  rw [List.filterMap_filter, List.filter_filterMap]
  refine congrArg (List.filterMap · vs) (funext fun q => ?_)
  obtain ⟨name, o⟩ := q
  cases o <;> by_cases e : name = p <;> simp [e, Option.filter]

theorem texts_without_congr (h : Pairs.without p vs' = Pairs.without p vs) :
    Pairs.without p vs'.texts = Pairs.without p vs.texts := by
  rw [← texts_without, ← texts_without, h]

theorem get?_texts_congr (h : Pairs.without p vs' = Pairs.without p vs) {name : Text}
    (hne : name ≠ p) : Pairs.get? name vs'.texts = Pairs.get? name vs.texts := by
  rw [← Pairs.get?_without hne, texts_without_congr h, Pairs.get?_without hne]

section

variable {l : Layout} (hn : KnownNames vs.texts l) (h : Pairs.without p vs' = Pairs.without p vs)

include hn h

/-- Names stay known when one variable is set, which the layout may name when it is known. -/
theorem KnownNames.congr (hp : Bare p)
    (hset : .token (.named p) ∈ l → ∃ s, Pairs.get? p vs'.texts = some s ∧ Bare s) :
    KnownNames vs'.texts l where
  names := fun q hq => by
    by_cases e : q.1 = p
    · exact e ▸ hp
    · have hw : q ∈ Pairs.without p vs.texts :=
        texts_without_congr h ▸ Pairs.mem_without.2 ⟨hq, e⟩
      exact hn.names q (Pairs.mem_without.1 hw).1
  placeholders := fun seg hs hlit => by
    obtain ⟨name, s, rfl, hr, hget, hb⟩ := hn.placeholders seg hs hlit
    by_cases e : name = p
    · subst e
      obtain ⟨s', hget', hb'⟩ := hset hs
      exact ⟨name, s', rfl, hr, hget', hb'⟩
    · exact ⟨name, s, rfl, hr, (get?_texts_congr h e).trans hget, hb⟩

theorem KnownNames.value_congr {t : Token} (ht : .token t ∈ l) (hne : t ≠ .named p) :
    t.value vs'.texts none = t.value vs.texts none := by
  obtain ⟨name, s, e, _⟩ := hn.placeholders _ ht rfl
  cases e
  exact congrArg (·.getD []) (get?_texts_congr h fun e => hne (congrArg Token.named e))

end

section

variable {l : Layout} (hn : KnownNames vs.texts l)

include hn

theorem KnownNames.ne_value {t : Token} (ht : .token t ∈ l) : t ≠ .named "value" := by
  rintro rfl
  obtain ⟨name, s, e, hr, _⟩ := hn.placeholders _ ht rfl
  cases e
  exact absurd hr (by decide)

/-- The variable that a template binds anew is none of the names. -/
theorem KnownNames.scope (tables : Pairs Text (Pairs Text Text)) :
    KnownNames ((⟨vs, tables⟩ : Context).scope .none).vars l :=
  hn.congr (Pairs.without_put_self none vs) (by decide) fun h => absurd rfl (hn.ne_value h)

theorem KnownNames.value_scope (tables : Pairs Text (Pairs Text Text)) {t : Token}
    (ht : .token t ∈ l) :
    t.value ((⟨vs, tables⟩ : Context).scope .none).vars none = t.value vs.texts none :=
  hn.value_congr (Pairs.without_put_self none vs) ht (hn.ne_value ht)

end

end

/-! ## Lengths -/

section

variable {l : Layout} {f f' : Token → Text} {g : Chain → Text}
  (hle : ∀ t, .token t ∈ l → (f t).length ≤ (f' t).length)

include hle

theorem Layout.length_write_le : (l.write f g).length ≤ (l.write f' g).length := by
  induction l with
  | nil => exact Nat.le_refl 0
  | cons seg l ih =>
    have htail := ih fun t ht => hle t (List.mem_cons_of_mem seg ht)
    have hseg : (seg.write f g).length ≤ (seg.write f' g).length := by
      cases seg with
      | literal s => exact Nat.le_refl _
      | token t => exact hle t List.mem_cons_self
      | chain c => exact Nat.le_refl _
    show (seg.write f g ++ Layout.write f g l).length ≤
      (seg.write f' g ++ Layout.write f' g l).length
    rw [List.length_append, List.length_append]
    omega

theorem Layout.length_write_lt {t : Token} (ht : .token t ∈ l)
    (hlt : (f t).length < (f' t).length) : (l.write f g).length < (l.write f' g).length := by
  obtain ⟨a, b, rfl⟩ := List.append_of_mem ht
  have ha := Layout.length_write_le (l := a) (g := g) fun t h =>
    hle t (List.mem_append_left _ h)
  have hb := Layout.length_write_le (l := b) (g := g) fun t h =>
    hle t (List.mem_append_right _ (List.mem_cons_of_mem _ h))
  rw [Layout.write_append, Layout.write_append, List.length_append, List.length_append]
  show _ + (f t ++ Layout.write f g b).length < _ + (f' t ++ Layout.write f' g b).length
  rw [List.length_append, List.length_append]
  omega

end

/-! ## What is written -/

section

variable {l before core after : Layout} {vs vs' : Variables}
  {tables : Pairs Text (Pairs Text Text)} (hl : Written l) (h : Ends l before core after)
  (hn : KnownNames vs.texts l)

include hl h hn

/-- **Known names** are written as they are, unless that says no more than the static text. -/
theorem KnownNames.evaluate_eq [Host] : (compile l.text).evaluate .none ⟨vs, tables⟩ none false =
    .ok (if saysMore (compile l.text) (core.write (Token.value vs.texts none) fun _ => []) then
      some (l.write (Token.value vs.texts none) fun _ => []) else none) := by
  have hfill : fillAll (compile l.text) ((⟨vs, tables⟩ : Context).scope .none) none =
      .ok (core.write (Token.value vs.texts none) fun _ => []) := by
    rw [compile_ends hl.proper h hl.trimmed hl.unquoted]
    have hproper := h.proper hl.proper
    rw [KnownNames.fillAll_eq (Ends.named (hn.scope tables) h)
      (compiled_template hproper before.text after.text) hproper]
    exact congrArg Except.ok (Layout.write_congr
      (fun t ht => hn.value_scope tables (h.mem ht)) fun _ _ => rfl)
  rw [h.evaluate_eq hl (Or.inr rfl), hfill, h.write_eq]
  rfl

theorem KnownNames.staticText_eq : (compile l.text).staticText = core.literalText := by
  rw [compile_ends hl.proper h hl.trimmed hl.unquoted]
  have hproper := h.proper hl.proper
  exact staticText_template hproper (compiled_template hproper before.text after.text)
    fun c hc => absurd (h.mem hc) (hn.chain_notMem c)

/-- **A longer text** for a name of the layout is not written alike. -/
theorem KnownNames.evaluate_longer [Host] (hn' : KnownNames vs'.texts l)
    (hle : ∀ t, .token t ∈ l →
      (t.value vs.texts none).length ≤ (t.value vs'.texts none).length)
    {t : Token} (ht : .token t ∈ l)
    (hlt : (t.value vs.texts none).length < (t.value vs'.texts none).length) :
    (compile l.text).evaluate .none ⟨vs, tables⟩ none false ≠
      (compile l.text).evaluate .none ⟨vs', tables⟩ none false := by
  have hwhole := Layout.length_write_lt (g := fun _ => []) hle ht hlt
  have hcore := Layout.length_write_lt (l := core) (g := fun _ => [])
    (fun t ht => hle t (h.mem ht)) (h.mem_core ht rfl) hlt
  have hliteral : core.literalText.length ≤
      (core.write (Token.value vs.texts none) fun _ => []).length :=
    Layout.length_write_le fun _ _ => Nat.zero_le _
  -- The longer text is longer than the static text, so it is written.
  have hmore : saysMore (compile l.text)
      (core.write (Token.value vs'.texts none) fun _ => []) = true := by
    unfold saysMore
    rw [hn.staticText_eq hl h, Bool.and_eq_true, Bool.or_eq_true, bne_iff_ne, bne_iff_ne]
    refine ⟨fun e => ?_, Or.inr fun e => ?_⟩
    · rw [e] at hcore
      exact absurd hcore (Nat.not_lt_zero _)
    · rw [e] at hcore
      omega
  rw [hn.evaluate_eq hl h, hn'.evaluate_eq hl h, if_pos hmore]
  intro e
  split at e
  · rw [Option.some.inj (Except.ok.inj e)] at hwhole
    exact Nat.lt_irrefl _ hwhole
  · cases Except.ok.inj e

end

end Crosswalk.Template
