import Crosswalk.Proofs.Pairs
import Crosswalk.Proofs.Template.Layout

/-!
# Rounds of replacement on a layout

A round replaces one word in the whole text of a layout. When the word stands between double braces
and is balanced it can only stand where a token or an expression does, so the round works on each
segment alone:

    Replaces w new u v: in any text, `u` becomes `v` and what follows is replaced on its own
    fill ps (l.write f (expression f)) = l.write (look ps ∘ f)
      fun c => (c.replaced? ps f).getD (c.expression (look ps ∘ f))                 (fill_rounds)

`Ready` is what every round finds and leaves (`Ready.next`). An expression is replaced when it is
the word of a round as it stands by then (`Chain.replaced?`). Where no word is an expression, none
is replaced (`fill_tokens`); where no earlier round fills its tokens, it is replaced by the first
pair for it (`Chain.replaced?_eq_get?`).
-/

namespace Crosswalk.Template

open Text

/-! ## Words of a round -/

/-- A balanced word between double braces. -/
def IsKey (w : Text) : Prop := ∃ x, Paired x ∧ w = braced x

theorem IsKey.ne_nil {w : Text} (h : IsKey w) : w ≠ [] := by
  obtain ⟨x, _, rfl⟩ := h
  exact braced_ne_nil x

theorem IsKey.not_bare {w : Text} (h : IsKey w) : ¬ Bare w := by
  obtain ⟨x, _, rfl⟩ := h
  exact fun hb => hb.not_mem (c := '{') rfl List.mem_cons_self

theorem Token.Proper.isKey {t : Token} (h : t.Proper) : IsKey t.text := ⟨t.inside, h.paired, rfl⟩

theorem isKey_reference {name : Text} (h : Bare name) : IsKey (reference name) :=
  ⟨_, (bare_cons.2 ⟨rfl, bare_append.2 ⟨h, by decide⟩⟩ : Bare (' ' :: (name ++ [' ']))).paired,
    reference_eq_braced name⟩

/-! ## What a round does to a part -/

/-- In any text, a round makes `v` of `u` and treats what follows on its own. -/
def Replaces (w new u v : Text) : Prop :=
  ∀ rest, replaceAll w new (u ++ rest) = v ++ replaceAll w new rest

variable {w new u v : Text}

theorem Replaces.append {u' v' : Text} (h : Replaces w new u v) (h' : Replaces w new u' v') :
    Replaces w new (u ++ u') (v ++ v') := by
  intro rest
  rw [List.append_assoc, h, h', List.append_assoc]

theorem Replaces.flatMap {α : Type} {l : List α} {f g : α → Text}
    (h : ∀ x ∈ l, Replaces w new (f x) (g x)) :
    Replaces w new (l.flatMap f) (l.flatMap g) := by
  induction l with
  | nil => exact fun rest => rfl
  | cons x l ih =>
    rw [List.flatMap_cons, List.flatMap_cons]
    exact (h x List.mem_cons_self).append (ih fun y hy => h y (List.mem_cons_of_mem x hy))

theorem Replaces.replaceAll (hw : w ≠ []) (h : Replaces w new u v) : replaceAll w new u = v := by
  have := h []
  rwa [List.append_nil, replaceAll_nil hw, List.append_nil] at this

theorem replaces_self (hw : w ≠ []) : Replaces w new w new :=
  fun rest => replaceAll_append_self rest hw

theorem replaces_quiet (hw : IsKey w) (h : ∀ rest, Quiet (startsWith openMark) u rest) :
    Replaces w new u u := by
  intro rest
  obtain ⟨x, _, rfl⟩ := hw
  exact replaceAll_quiet (braced_ne_nil x) ((h rest).braced x)

theorem replaces_bare (hw : IsKey w) (h : Bare u) : Replaces w new u u :=
  replaces_quiet hw h.quiet_open

theorem quiet_spacedClose (rest : Text) : Quiet (startsWith openMark) spacedClose rest :=
  quiet_of_forall fun c hc t => by
    have hb : c ≠ '{' := by
      rintro rfl
      revert hc
      decide
    simp [startsWith, after?, openMark, Ne.symm hb]

/-- Inside a token nothing opens. -/
theorem Token.Proper.quiet_tail {t : Token} (h : t.Proper) (rest : Text) :
    Quiet (startsWith openMark) ('{' :: (t.inside ++ ['}', '}'])) rest := by
  rw [← List.cons_append, quiet_append]
  refine ⟨?_, quiet_of_forall fun c hc s => ?_⟩
  · cases t with
    | query path =>
      refine quiet_of_not_contains (ProperPath.opens h) fun c hc => ?_
      simp only [List.cons_append, List.head?_cons, Option.mem_some] at hc
      subst hc
      decide
    | named name =>
      refine ⟨by simp [startsWith, after?, openMark, Token.inside], ?_⟩
      exact (bare_cons.2 ⟨rfl, bare_append.2 ⟨ProperName.bare h, by decide⟩⟩ :
        Bare (' ' :: (name ++ [' ']))).quiet_open _
  · have hb : c = '}' := by simpa using hc
    subst hb
    rfl

/-- A part that starts like the word without being it loses nothing but its place. -/
theorem replaces_braced {x : Text} (hw : IsKey w) (hx : Paired x) (hne : w ≠ braced x)
    (h : Replaces w new ('{' :: (x ++ ['}', '}'])) v) : Replaces w new (braced x) ('{' :: v) := by
  intro rest
  obtain ⟨y, hy, rfl⟩ := hw
  have hs : startsWith (braced y) ('{' :: ('{' :: (x ++ ['}', '}']) ++ rest)) = false :=
    startsWith_braced hy hx fun e => hne (congrArg braced e)
  show replaceAll (braced y) new ('{' :: ('{' :: (x ++ ['}', '}']) ++ rest)) = _
  rw [replaceAll_cons (braced_ne_nil y) hs, h rest, List.cons_append]

theorem replaces_token {t : Token} (ht : t.Proper) (hw : IsKey w) (hne : w ≠ t.text) :
    Replaces w new t.text t.text :=
  replaces_braced hw ht.paired hne (replaces_quiet hw ht.quiet_tail)

theorem Chain.Proper.paired_inside {c : Chain} (hc : c.Proper) {f : Token → Text}
    (hf : ∀ t ∈ c.tokens, Paired (f t)) : Paired (' ' :: (c.write f ++ [' '])) := by
  have ht : ∀ t ∈ c.tokens, Paired t.text := by
    intro t ht
    have := (hc.tokens t ht).paired.level
    unfold Token.text braced Paired
    simp [level, level_append, this]
  have := (Chain.paired_write ht hf hc.paired).level
  unfold Paired
  simp [level, level_append, this]

theorem replaces_chain {c : Chain} {f g : Token → Text} (hc : c.Proper) (hw : IsKey w)
    (hf : ∀ t ∈ c.tokens, Paired (f t)) (hne : w ≠ c.expression f)
    (h : ∀ t ∈ c.tokens, Replaces w new (f t) (g t)) :
    Replaces w new (c.expression f) (c.expression g) := by
  have hopen : Replaces w new ['{', ' '] ['{', ' '] :=
    replaces_quiet hw fun rest => quiet_open (by decide) rest
  have hclose : Replaces w new spacedClose spacedClose := replaces_quiet hw quiet_spacedClose
  have htexts : ∀ s ∈ c.texts, Replaces w new s s :=
    fun s hs => replaces_quiet hw (quiet_open (hc.opens s hs))
  have hwrite : Replaces w new (c.write f) (c.write g) := by
    refine (htexts _ List.mem_cons_self).append (.flatMap fun p hp => ?_)
    exact (h p.1 (List.mem_map_of_mem hp)).append
      (htexts p.2 (List.mem_cons_of_mem _ (List.mem_map_of_mem hp)))
  rw [Chain.expression_eq_braced f] at hne ⊢
  have := replaces_braced hw (hc.paired_inside hf) hne (v := '{' :: ' ' :: c.write g ++ spacedClose)
    (by simpa [spacedClose] using (hopen.append hwrite).append hclose)
  simpa [Chain.expression_eq_braced, braced, spacedClose] using this

/-! ## Rounds over the layout -/

/-- What the pairs make of a word: its value, or the word itself. -/
def look (ps : Pairs Text Text) (s : Text) : Text := (Pairs.get? s ps).getD s

/-- A token as it is written, or filled. -/
def Filled (f : Token → Text) (t : Token) : Prop := f t = t.text ∨ Bare (f t)

theorem Filled.paired {f : Token → Text} {t : Token} (ht : t.Proper) (h : Filled f t) :
    Paired (f t) := by
  rcases h with h | h
  · have := ht.paired.level
    rw [h]
    unfold Token.text braced Paired
    simp [level, level_append, this]
  · exact h.paired

theorem Filled.replaces {f : Token → Text} {t : Token} (ht : t.Proper) (hw : IsKey w)
    (h : Filled f t) : Replaces w new (f t) (if f t = w then new else f t) := by
  split
  · next e =>
    rw [e]
    exact replaces_self hw.ne_nil
  · next e =>
    rcases h with h | h
    · rw [h] at e ⊢
      exact replaces_token ht hw (Ne.symm e)
    · exact replaces_bare hw h

theorem look_cons (p : Text × Text) (ps : Pairs Text Text) (s : Text)
    (h : s = p.1 → Pairs.get? p.2 ps = none) :
    look ps (if s = p.1 then p.2 else s) = look (p :: ps) s := by
  obtain ⟨k, v⟩ := p
  unfold look
  rw [Pairs.get?]
  by_cases e : s = k
  · subst e
    rw [if_pos rfl, if_pos rfl, h rfl]
    rfl
  · rw [if_neg e, if_neg (Ne.symm e)]

theorem get?_bare {s : Text} {ps : Pairs Text Text} (hk : ∀ p ∈ ps, IsKey p.1) (hs : Bare s) :
    Pairs.get? s ps = none := by
  refine Pairs.get?_eq_none.2 fun hm => ?_
  obtain ⟨p, hp, e⟩ := List.mem_map.1 hm
  exact (hk p hp).not_bare (e ▸ hs)

theorem fill_cons (p : Text × Text) (ps : Pairs Text Text) (s : Text) :
    fill (p :: ps) s = fill ps (replaceAll p.1 p.2 s) := rfl

theorem replaceAll_write {l : Layout} {f f' : Token → Text} {g g' : Chain → Text} (hw : IsKey w)
    (hl : ∀ seg ∈ l, seg.Proper)
    (hf : ∀ t, .token t ∈ l → Replaces w new (f t) (f' t))
    (hg : ∀ c, .chain c ∈ l → Replaces w new (g c) (g' c)) :
    replaceAll w new (l.write f g) = l.write f' g' := by
  refine Replaces.replaceAll hw.ne_nil (.flatMap fun seg hs => ?_)
  cases seg with
  | literal s => exact replaces_bare hw (hl _ hs)
  | token t => exact hf t hs
  | chain c => exact hg c hs

/-- What a chain is replaced by: the value of the first pair whose word is the whole expression when
its round comes. Rounds before that may fill its tokens. -/
def Chain.replaced? (c : Chain) : Pairs Text Text → (Token → Text) → Option Text
  | [], _ => none
  | p :: ps, f =>
    if c.expression f = p.1 then some p.2
    else c.replaced? ps fun t => if f t = p.1 then p.2 else f t

theorem Chain.replaced?_congr (c : Chain) (ps : Pairs Text Text) {f f' : Token → Text}
    (h : ∀ t ∈ c.tokens, f t = f' t) : c.replaced? ps f = c.replaced? ps f' := by
  induction ps generalizing f f' with
  | nil => rfl
  | cons p ps ih =>
    rw [Chain.replaced?, Chain.replaced?, Chain.expression_congr h,
      ih fun t ht => by rw [h t ht]]

theorem Chain.mem_of_replaced? {c : Chain} {ps : Pairs Text Text} {f : Token → Text} {v : Text}
    (h : c.replaced? ps f = some v) : ∃ p ∈ ps, p.2 = v := by
  induction ps generalizing f with
  | nil => cases h
  | cons p ps ih =>
    rw [Chain.replaced?] at h
    split at h
    · exact ⟨p, List.mem_cons_self, Option.some.inj h⟩
    · obtain ⟨q, hq, e⟩ := ih h
      exact ⟨q, List.mem_cons_of_mem p hq, e⟩

/-- A token after the round of a pair. -/
def roundToken (p : Text × Text) (f : Token → Text) (t : Token) : Text :=
  if f t = p.1 then p.2 else f t

/-- What stands for a chain after the round of a pair, if it is replaced by then. -/
def roundChain (p : Text × Text) (f : Token → Text) (g : Chain → Option Text) (c : Chain) :
    Option Text :=
  (g c).or (if c.expression f = p.1 then some p.2 else none)

/-- Before the rounds of `ps`, with `f` for the tokens and `g` for the chains that are replaced:
what is filled, or will be, is without braces. -/
structure Ready (l : Layout) (ps : Pairs Text Text) (f : Token → Text) (g : Chain → Option Text) :
    Prop where
  keys : ∀ p ∈ ps, IsKey p.1
  filled : ∀ t ∈ l.tokens, Filled f t
  values : ∀ t ∈ l.tokens, f t = t.text → ∀ v, Pairs.get? t.text ps = some v → Bare v
  replaced : ∀ c, .chain c ∈ l → ∀ v, g c = some v → Bare v
  results : ∀ c, .chain c ∈ l → g c = none → ∀ v, c.replaced? ps f = some v → Bare v

/-- At first no chain is replaced. -/
theorem Ready.first {l : Layout} {ps : Pairs Text Text} {f : Token → Text}
    (hk : ∀ p ∈ ps, IsKey p.1) (hf : ∀ t ∈ l.tokens, Filled f t)
    (hv : ∀ t ∈ l.tokens, f t = t.text → ∀ v, Pairs.get? t.text ps = some v → Bare v)
    (hr : ∀ c, .chain c ∈ l → ∀ v, c.replaced? ps f = some v → Bare v) :
    Ready l ps f fun _ => none :=
  ⟨hk, hf, hv, fun _ _ _ h => (Option.some_ne_none _ h.symm).elim, fun c hc _ => hr c hc⟩

section

variable {l : Layout} {p : Text × Text} {ps : Pairs Text Text} {f : Token → Text}
  {g : Chain → Option Text} (hl : ∀ seg ∈ l, seg.Proper) (h : Ready l (p :: ps) f g)

include h

/-- A token that is filled in this round is filled for good. -/
theorem Ready.bare_filled {t : Token} (ht : t ∈ l.tokens) (e : f t = p.1) : Bare p.2 := by
  rcases h.filled t ht with hf | hf
  · exact h.values t ht hf p.2 (by rw [← hf, e, Pairs.get?, if_pos rfl])
  · exact absurd (e ▸ hf) (h.keys p List.mem_cons_self).not_bare

theorem Ready.look_eq {t : Token} (ht : t ∈ l.tokens) :
    look ps (roundToken p f t) = look (p :: ps) (f t) :=
  look_cons p ps (f t) fun e =>
    get?_bare (fun q hq => h.keys q (List.mem_cons_of_mem p hq)) (h.bare_filled ht e)

omit h in
theorem roundChain_or (c : Chain) : (roundChain p f g c).or (c.replaced? ps (roundToken p f)) =
    (g c).or (c.replaced? (p :: ps) f) := by
  unfold roundChain
  rw [Option.or_assoc, Chain.replaced?]
  split
  · rfl
  · rw [Option.none_or]
    rfl

include hl

/-- **One round** leaves everything ready for the others. -/
theorem Ready.next : Ready l ps (roundToken p f) (roundChain p f g) where
  keys := fun q hq => h.keys q (List.mem_cons_of_mem p hq)
  filled := fun t ht => by
    unfold Filled roundToken
    by_cases e : f t = p.1
    · rw [if_pos e]
      exact Or.inr (h.bare_filled ht e)
    · rw [if_neg e]
      exact h.filled t ht
  values := fun t ht ht' v hget => by
    unfold roundToken at ht'
    by_cases e : f t = p.1
    · rw [if_pos e] at ht'
      exact absurd (ht' ▸ h.bare_filled ht e) (Layout.proper_of_mem_tokens hl ht).isKey.not_bare
    · rw [if_neg e] at ht'
      refine h.values t ht ht' v ?_
      rw [Pairs.get?, if_neg fun h' => e (ht'.trans h'.symm), hget]
  replaced := fun c hc v hv => by
    unfold roundChain at hv
    cases hgc : g c with
    | some v' =>
      rw [hgc] at hv
      exact h.replaced c hc v (hgc.trans hv)
    | none =>
      rw [hgc, Option.none_or] at hv
      split at hv
      · next e => exact h.results c hc hgc v (by rw [Chain.replaced?, if_pos e, hv])
      · cases hv
  results := fun c hc hnone v hv => by
    obtain ⟨hgc, hne⟩ := Option.or_eq_none_iff.1 hnone
    have e : c.expression f ≠ p.1 := fun e => by
      rw [if_pos e] at hne
      cases hne
    exact h.results c hc hgc v (by rw [Chain.replaced?, if_neg e]; exact hv)

theorem Ready.replaceAll_eq :
    replaceAll p.1 p.2 (l.write f fun c => (g c).getD (c.expression f)) =
      l.write (roundToken p f) fun c =>
        (roundChain p f g c).getD (c.expression (roundToken p f)) := by
  have hp := h.keys p List.mem_cons_self
  refine replaceAll_write hp hl (fun t ht => ?_) fun c hc => ?_
  · exact (h.filled t (Layout.mem_tokens ht (List.mem_singleton.2 rfl))).replaces
      ((hl _ ht).tokens t (List.mem_singleton.2 rfl)) hp
  · unfold roundChain
    cases hgc : g c with
    | some v => exact replaces_bare hp (h.replaced c hc v hgc)
    | none =>
      by_cases e : c.expression f = p.1
      · rw [if_pos e, e]
        exact replaces_self hp.ne_nil
      · rw [if_neg e]
        refine replaces_chain (hl _ hc) hp (fun t ht => ?_) (Ne.symm e) fun t ht => ?_
        · exact (h.filled t (Layout.mem_tokens hc ht)).paired ((hl _ hc).tokens t ht)
        · exact (h.filled t (Layout.mem_tokens hc ht)).replaces ((hl _ hc).tokens t ht) hp

end

/-- **Rounds.** Each round works on each segment alone: tokens are filled by the first pair for
them, in expressions too, and an expression is replaced when it is the word of a round. Those for
which `g` has a value are replaced already. -/
theorem fill_rounds {l : Layout} (hl : ∀ seg ∈ l, seg.Proper) {ps : Pairs Text Text}
    {f : Token → Text} {g : Chain → Option Text} (h : Ready l ps f g) :
    fill ps (l.write f fun c => (g c).getD (c.expression f)) =
      l.write (fun t => look ps (f t)) fun c =>
        ((g c).or (c.replaced? ps f)).getD (c.expression fun t => look ps (f t)) := by
  induction ps generalizing f g with
  | nil =>
    refine Layout.write_congr (fun _ _ => rfl) fun c _ => ?_
    rw [Chain.replaced?, Option.or_none]
    rfl
  | cons p ps ih =>
    rw [fill_cons, h.replaceAll_eq hl, ih (h.next hl)]
    refine Layout.write_congr (fun t ht => ?_) fun c hc => ?_
    · exact h.look_eq (Layout.mem_tokens ht (List.mem_singleton.2 rfl))
    · rw [roundChain_or, Chain.expression_congr fun t ht => h.look_eq (Layout.mem_tokens hc ht)]

/-- **Rounds of tokens.** Rounds whose words are no expressions of the layout fill its tokens,
inside and outside its expressions. -/
theorem fill_tokens {l : Layout} (hl : ∀ seg ∈ l, seg.Proper) (ps : Pairs Text Text)
    (hk : ∀ p ∈ ps, IsKey p.1)
    (ha : ∀ p ∈ ps, ∀ c, .chain c ∈ l → ∀ f : Token → Text, c.expression f ≠ p.1)
    (f : Token → Text) (hf : ∀ t ∈ l.tokens, Filled f t)
    (hv : ∀ t ∈ l.tokens, f t = t.text → ∀ v, Pairs.get? t.text ps = some v → Bare v) :
    fill ps (l.write f (Chain.expression f)) =
      l.write (fun t => look ps (f t)) (Chain.expression fun t => look ps (f t)) := by
  have hnone : ∀ c, .chain c ∈ l → c.replaced? ps f = none := by
    intro c hc
    clear hf hv hk
    induction ps generalizing f with
    | nil => rfl
    | cons p ps ih =>
      rw [Chain.replaced?, if_neg (ha p List.mem_cons_self c hc f)]
      exact ih (fun q hq => ha q (List.mem_cons_of_mem p hq)) _
  refine (fill_rounds hl (.first hk hf hv fun c hc v h => ?_)).trans
    (Layout.write_congr (fun _ _ => rfl) fun c hc => ?_)
  · rw [hnone c hc] at h
    cases h
  · rw [hnone c hc]
    rfl

/-- An expression whose tokens no earlier round fills is replaced by the first pair for it. -/
theorem Chain.replaced?_eq_get? {c : Chain} {a b : Pairs Text Text} {q : Text × Text}
    {f : Token → Text} (hq : q.1 = c.expression f) (ha : ∀ p ∈ a, ∀ t ∈ c.tokens, p.1 ≠ f t) :
    c.replaced? (a ++ q :: b) f = Pairs.get? (c.expression f) (a ++ q :: b) := by
  induction a with
  | nil =>
    rw [List.nil_append, Chain.replaced?, Pairs.get?, if_pos hq, if_pos hq.symm]
  | cons p a ih =>
    rw [List.cons_append, Chain.replaced?, Pairs.get?]
    by_cases e : c.expression f = p.1
    · rw [if_pos e, if_pos e.symm]
    · rw [if_neg e, if_neg (Ne.symm e), ← ih fun p' hp => ha p' (List.mem_cons_of_mem p hp)]
      exact c.replaced?_congr _ fun t ht => if_neg (ha p List.mem_cons_self t ht).symm

end Crosswalk.Template
