import Crosswalk.Proofs.Template.Compiled

/-!
# The ends of a layout

The literal text at both ends of a layout is not part of its template: `Ends l before core after`
says that `core` runs from the first placeholder of `l` to the last one.

    compile l.text = compileTemplate before.text core.text after.text             (compile_ends)
    l.value = .ok s ↔ ∃ s', core.value = .ok s' ∧ s = before.text ++ s' ++ after.text
                                                                             (Ends.value_eq_ok)

A layout without placeholders is a literal text (`compile_literals`).
-/

namespace Crosswalk.Template

open Text

/-! ## Finding the marks -/

theorem cut?_quiet {w u rest : Text} (h : Quiet (startsWith w) u rest) :
    cut? w (u ++ rest) = (cut? w rest).map fun p => (u ++ p.1, p.2) := by
  induction u with
  | nil => simp
  | cons c u ih =>
    rw [List.cons_append, cut?_cons h.1, ih h.2, Option.map_map]
    rfl

theorem cutLastMark?_append {mark s a b : Text} (u : Text) (h : cutLastMark? mark s = some (a, b)) :
    cutLastMark? mark (u ++ s) = some (u ++ a, b) := by
  induction u with
  | nil => exact h
  | cons c u ih => rw [List.cons_append, cutLastMark?, ih]; rfl

theorem cutLastMark?_bare {s : Text} (h : Bare s) : cutLastMark? closeMark s = none := by
  induction s with
  | nil => rfl
  | cons c s ih =>
    obtain ⟨hc, hs⟩ := bare_cons.1 h
    have hne : '}' ≠ c := by
      rintro rfl
      exact absurd hc (by decide)
    rw [cutLastMark?, ih hs, closeMark, after?, if_neg hne]
    rfl

theorem cutLastMark?_close {s : Text} (h : Bare s) :
    cutLastMark? closeMark (closeMark ++ s) = some ([], s) := by
  have hafter : after? closeMark ('}' :: s) = none := by
    cases s with
    | nil => rfl
    | cons c s =>
      have hne : '}' ≠ c := by
        rintro rfl
        exact absurd (bare_cons.1 h).1 (by decide)
      rw [closeMark, after?, if_pos rfl, after?, if_neg hne]
  show cutLastMark? closeMark ('}' :: '}' :: s) = _
  rw [cutLastMark?, cutLastMark?, cutLastMark?_bare h, hafter]
  simp only [Option.map_none]
  rw [show '}' :: '}' :: s = closeMark ++ s from rfl, after?_append]
  rfl

/-- A reserved token alone is the template that is read from it. -/
theorem compile_reserved {s b t a : Text} (h : s ∈ reservedTokens) (hp : parts? s = some (b, t, a)) :
    { Modifier.empty with pattern := some s, replace := [s] } = compileTemplate b t a := by
  have hall : ∀ s ∈ reservedTokens, parts? s = some ([], s, []) ∧
      { Modifier.empty with pattern := some s, replace := [s] } = compileTemplate [] s [] := by
    decide +kernel
  obtain ⟨h1, h2⟩ := hall s h
  rw [h1] at hp
  cases hp
  exact h2

/-! ## Splitting a layout -/

structure Ends (l before core after : Layout) : Prop where
  split : l = before ++ (core ++ after)
  before : ∀ seg ∈ before, seg.isLiteral = true
  after : ∀ seg ∈ after, seg.isLiteral = true
  first : ∃ seg rest, core = seg :: rest ∧ seg.isLiteral = false
  last : ∃ rest seg, core = rest ++ [seg] ∧ seg.isLiteral = false

theorem exists_ends (l : Layout) :
    (∀ seg ∈ l, seg.isLiteral = true) ∨ ∃ before core after, Ends l before core after := by
  induction l with
  | nil => exact Or.inl fun seg h => absurd h List.not_mem_nil
  | cons seg l ih =>
    rcases ih with hall | ⟨before, core, after, h⟩
    · cases hs : seg.isLiteral with
      | true =>
        refine Or.inl fun seg' h => ?_
        rcases List.mem_cons.1 h with rfl | h
        · exact hs
        · exact hall seg' h
      | false =>
        refine Or.inr ⟨[], [seg], l, rfl, fun _ h => absurd h List.not_mem_nil, hall, ?_, ?_⟩
        · exact ⟨seg, [], rfl, hs⟩
        · exact ⟨[], seg, rfl, hs⟩
    · right
      cases hs : seg.isLiteral with
      | true =>
        refine ⟨seg :: before, core, after, by rw [h.split]; rfl, fun seg' h' => ?_, h.after,
          h.first, h.last⟩
        rcases List.mem_cons.1 h' with rfl | h'
        · exact hs
        · exact h.before seg' h'
      | false =>
        obtain ⟨rest, last, hlast, hl⟩ := h.last
        refine ⟨[], seg :: (before ++ core), after, by rw [h.split]; simp,
          fun _ h => absurd h List.not_mem_nil, h.after, ⟨seg, _, rfl, hs⟩, ?_⟩
        exact ⟨seg :: (before ++ rest), last, by rw [hlast]; simp, hl⟩

theorem Layout.write_append (f : Token → Text) (g : Chain → Text) (a b : Layout) :
    (a ++ b : Layout).write f g = a.write f g ++ b.write f g :=
  List.flatMap_append

theorem Layout.text_append (a b : Layout) : (a ++ b : Layout).text = a.text ++ b.text :=
  Layout.write_append _ _ a b

theorem bare_literals {l : Layout} (hl : ∀ seg ∈ l, seg.Proper)
    (h : ∀ seg ∈ l, seg.isLiteral = true) : Bare l.text := by
  refine bare_flatMap fun seg hs => ?_
  have hlit := h seg hs
  cases seg with
  | literal s => exact hl _ hs
  | token t => cases hlit
  | chain c => cases hlit

theorem Segment.text_eq_braced {seg : Segment} (h : seg.isLiteral = false) :
    ∃ x, seg.write Token.text (Chain.expression Token.text) = braced x := by
  cases seg with
  | literal s => cases h
  | token t => exact ⟨_, rfl⟩
  | chain c => exact ⟨_, Chain.expression_eq_braced _ c⟩

section

variable {l before core after : Layout} (hl : ∀ seg ∈ l, seg.Proper)
  (h : Ends l before core after)

include h

theorem Ends.text_eq : l.text = before.text ++ (core.text ++ after.text) := by
  rw [h.split, Layout.text_append, Layout.text_append]

theorem Ends.mem {seg : Segment} (hs : seg ∈ core) : seg ∈ l := by
  rw [h.split]
  exact List.mem_append_right _ (List.mem_append_left _ hs)

/-- The ends hold no placeholder. -/
theorem Ends.mem_core {seg : Segment} (hs : seg ∈ l) (hlit : seg.isLiteral = false) :
    seg ∈ core := by
  rw [h.split, List.mem_append, List.mem_append] at hs
  rcases hs with hs | hs | hs
  · rw [h.before _ hs] at hlit
    cases hlit
  · exact hs
  · rw [h.after _ hs] at hlit
    cases hlit

theorem Ends.text_first : ∃ r, core.text = openMark ++ r := by
  obtain ⟨seg, rest, hcore, hs⟩ := h.first
  obtain ⟨x, hx⟩ := Segment.text_eq_braced hs
  refine ⟨x ++ closeMark ++ Layout.text rest, ?_⟩
  have : core.text = braced x ++ Layout.text rest := by
    rw [hcore, ← hx]
    rfl
  rw [this]
  simp [braced, openMark, closeMark]

theorem Ends.text_last : ∃ r, core.text = r ++ closeMark := by
  obtain ⟨rest, seg, hcore, hs⟩ := h.last
  obtain ⟨x, hx⟩ := Segment.text_eq_braced hs
  refine ⟨Layout.text rest ++ (openMark ++ x), ?_⟩
  have : core.text = Layout.text rest ++ braced x := by
    rw [hcore, Layout.text_append, ← hx]
    simp [Layout.text, Layout.write]
  rw [this]
  simp [braced, openMark, closeMark]

theorem Ends.text_ne_nil : core.text ≠ [] := by
  obtain ⟨r, hr⟩ := h.text_first
  rw [hr]
  exact List.cons_ne_nil _ _

include hl

theorem Ends.proper : ∀ seg ∈ core, seg.Proper := fun _ hs => hl _ (h.mem hs)

theorem Ends.bare_before : Bare before.text :=
  bare_literals (fun _ hs => hl _ (by rw [h.split]; exact List.mem_append_left _ hs)) h.before

theorem Ends.bare_after : Bare after.text :=
  bare_literals (fun _ hs => hl _ (by rw [h.split]; simp [hs])) h.after

theorem Ends.parts? : parts? l.text = some (before.text, core.text, after.text) := by
  obtain ⟨r, hr⟩ := h.text_first
  obtain ⟨r', hr'⟩ := h.text_last
  have hfind : find? openMark l.text = some before.text.length := by
    unfold find?
    rw [h.text_eq, cut?_quiet ((h.bare_before hl).quiet_open _), hr, List.append_assoc,
      cut?_append, Option.map_some, Option.map_some, List.append_nil]
  have hlast : cutLastMark? closeMark l.text = some (before.text ++ r', after.text) := by
    have := cutLastMark?_append (before.text ++ r') (cutLastMark?_close (h.bare_after hl))
    rw [List.append_nil] at this
    rw [h.text_eq, hr', ← this]
    simp
  have hlen : r'.length + 2 = core.text.length := by
    rw [hr']
    simp [closeMark]
  unfold Template.parts?
  rw [hfind, hlast]
  simp only [Option.bind_eq_bind, Option.bind_some, List.length_append]
  rw [if_neg (by omega), h.text_eq]
  have htake : (before.text ++ (core.text ++ after.text)).take (before.text.length + r'.length + 2) =
      before.text ++ core.text := by
    rw [← List.append_assoc, List.take_append_of_le_length]
    · exact List.take_of_length_le (by simp; omega)
    · simp
      omega
  rw [htake, List.take_left, List.drop_left]

/-- **The ends are taken off.** -/
theorem compile_ends (ht : trim l.text = l.text) (hq : isQuoted l.text = false) :
    compile l.text = compileTemplate before.text core.text after.text := by
  have hparts := h.parts? hl
  have hne : l.text ≠ [] := by
    rw [h.text_eq]
    simp [h.text_ne_nil]
  unfold compile
  simp only [ht, if_neg hne, hq]
  cases hr : reservedTokens.elem l.text with
  | false => simp [hparts]
  | true => exact compile_reserved (List.elem_iff.1 hr) hparts

end

/-- A layout without placeholders is a text for each value. -/
theorem compile_literals {l : Layout} (hl : ∀ seg ∈ l, seg.Proper)
    (h : ∀ seg ∈ l, seg.isLiteral = true) (ht : trim l.text = l.text) (hne : l.text ≠ [])
    (hq : isQuoted l.text = false) : compile l.text = .ofVal l.text := by
  have hbare := bare_literals hl h
  have hres : reservedTokens.elem l.text = false := by
    cases hr : reservedTokens.elem l.text with
    | false => rfl
    | true =>
      obtain ⟨name, _, e⟩ := reserved_eq (List.elem_iff.1 hr)
      rw [e] at hbare
      exact absurd List.mem_cons_self (hbare.not_mem (c := '{') rfl)
  have hparts : parts? l.text = none := by
    have hcut : cut? openMark l.text = none := by
      have := cut?_quiet (hbare.quiet_open [])
      rw [List.append_nil] at this
      rw [this]
      rfl
    unfold parts? find?
    rw [hcut]
    rfl
  unfold compile
  simp only [ht, if_neg hne, hq, hres, hparts]
  rfl

/-! ## Values -/

section

variable {scope : Filter.Scope} {lookup : Lookup}

theorem Layout.value_eq_ok [Host] {l : Layout} {g : Chain → Text}
    (hg : ∀ c, .chain c ∈ l → c.value scope lookup = .ok (g c)) :
    l.value scope lookup = .ok (l.write (Token.value scope.vars lookup) g) := by
  unfold Layout.value
  have hseg : l.mapM (Segment.value scope lookup) =
      .ok (l.map (Segment.write (Token.value scope.vars lookup) g)) := by
    induction l with
    | nil => rfl
    | cons seg l ih =>
      have hs : seg.value scope lookup = .ok (seg.write (Token.value scope.vars lookup) g) := by
        cases seg with
        | literal s => rfl
        | token t => rfl
        | chain c => exact hg c List.mem_cons_self
      rw [List.mapM_cons, hs, ih fun c hc => hg c (List.mem_cons_of_mem seg hc)]
      rfl
  rw [hseg]
  show Except.ok _ = _
  rw [← List.flatMap_def]
  rfl

theorem Layout.value_ok [Host] {l : Layout} {s : Text} (h : l.value scope lookup = .ok s)
    {c : Chain} (hc : .chain c ∈ l) : ∃ r, c.value scope lookup = .ok r := by
  unfold Layout.value at h
  cases hm : l.mapM (Segment.value scope lookup) with
  | error e => rw [hm] at h; cases h
  | ok parts =>
    clear h
    induction l generalizing parts with
    | nil => cases hc
    | cons seg l ih =>
      rw [List.mapM_cons] at hm
      cases hs : seg.value scope lookup with
      | error e => rw [hs] at hm; cases hm
      | ok r =>
        rw [hs] at hm
        rcases List.mem_cons.1 hc with rfl | hc
        · exact ⟨r, hs⟩
        · cases hr : l.mapM (Segment.value scope lookup) with
          | error e => rw [hr] at hm; cases hm
          | ok parts => exact ih hc parts hr

theorem write_literals {l : Layout} (h : ∀ seg ∈ l, seg.isLiteral = true) (f : Token → Text)
    (g : Chain → Text) : l.write f g = l.text :=
  List.flatMap_congr fun seg hs => by
    cases seg with
    | literal s => rfl
    | token t => cases h _ hs
    | chain c => cases h _ hs

theorem Ends.write_eq {l before core after : Layout} (h : Ends l before core after)
    (f : Token → Text) (g : Chain → Text) :
    l.write f g = before.text ++ core.write f g ++ after.text := by
  rw [h.split, Layout.write_append, Layout.write_append, write_literals h.before,
    write_literals h.after, List.append_assoc]

/-- The value of a chain that has one. -/
def Chain.got [Host] (scope : Filter.Scope) (lookup : Lookup) (c : Chain) : Text :=
  match c.value scope lookup with
  | .ok r => r
  | .error _ => []

theorem Layout.value_eq_ok_iff [Host] {l : Layout} {s : Text} : l.value scope lookup = .ok s ↔
    (∀ c, .chain c ∈ l → ∃ r, c.value scope lookup = .ok r) ∧
      s = l.write (Token.value scope.vars lookup) (Chain.got scope lookup) := by
  have hgot : ∀ c, (∃ r, Chain.value scope lookup c = .ok r) →
      c.value scope lookup = .ok (c.got scope lookup) := by
    rintro c ⟨r, hr⟩
    unfold Chain.got
    rw [hr]
  constructor
  · intro h
    have hc := fun c (hc : .chain c ∈ l) => Layout.value_ok h hc
    refine ⟨hc, ?_⟩
    rw [Layout.value_eq_ok fun c hm => hgot c (hc c hm)] at h
    exact (Except.ok.inj h).symm
  · rintro ⟨hc, rfl⟩
    exact Layout.value_eq_ok fun c hm => hgot c (hc c hm)

/-- A layout stands for what its core stands for, between the literal ends. -/
theorem Ends.value_eq_ok [Host] {l before core after : Layout} (h : Ends l before core after)
    {s : Text} :
    l.value scope lookup = .ok s ↔ ∃ s', core.value scope lookup = .ok s' ∧
      s = before.text ++ s' ++ after.text := by
  have hmem : ∀ c, .chain c ∈ l ↔ .chain c ∈ core := fun _ =>
    ⟨fun hc => h.mem_core hc rfl, h.mem⟩
  rw [Layout.value_eq_ok_iff, h.write_eq]
  constructor
  · rintro ⟨hc, rfl⟩
    exact ⟨_, Layout.value_eq_ok_iff.2 ⟨fun c hm => hc c ((hmem c).2 hm), rfl⟩, rfl⟩
  · rintro ⟨s', hs', rfl⟩
    obtain ⟨hc, rfl⟩ := Layout.value_eq_ok_iff.1 hs'
    exact ⟨fun c hm => hc c ((hmem c).1 hm), rfl⟩

end

end Crosswalk.Template
