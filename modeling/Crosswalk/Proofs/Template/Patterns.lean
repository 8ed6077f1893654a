import Crosswalk.Proofs.Mapping.WellFormed
import Crosswalk.Proofs.Template.Ends
import Crosswalk.Proofs.Template.Phases
import Crosswalk.Proofs.Template.Veils
import Crosswalk.Proofs.Text.Blank

/-!
# Compiled patterns

What `compile` makes of a pattern, whatever braces stand in it:

    Unmasked pattern → (compile pattern).fault? = none ∧ Compiles (trim pattern) (compile pattern)
                                                                                 (compile_pattern)

A template keeps the text of its pattern, and its placeholders are parts of that text between double
braces, none of them twice (`Compiles.Template`). The pattern is masked twice: the expressions are
read behind the masks of the references, which are read behind those of the queries, and revealing
takes both away again (`exists_shown`).
-/

namespace Crosswalk.Template

open Text

/-! ## Parts between braces -/

theorem not_contains_of_cutLastMark? {mark s : Text} (hmark : mark ≠ [])
    (h : cutLastMark? mark s = none) : contains mark s = false := by
  induction s with
  | nil =>
    obtain ⟨c, mark, rfl⟩ := List.exists_cons_of_ne_nil hmark
    rfl
  | cons c s ih =>
    rw [cutLastMark?] at h
    cases hs : cutLastMark? mark s with
    | some p =>
      rw [hs] at h
      cases h
    | none =>
      rw [hs] at h
      rw [contains_cons, after?_eq_none.1 (Option.map_eq_none_iff.1 h), ih hs]
      rfl

/-- A text is cut at its last mark, behind which there is none. -/
theorem cutLastMark?_eq_some {mark s a b : Text} (hmark : mark ≠ [])
    (h : cutLastMark? mark s = some (a, b)) : s = a ++ mark ++ b ∧ contains mark b = false := by
  induction s generalizing a with
  | nil => cases h
  | cons c s ih =>
    rw [cutLastMark?] at h
    cases hs : cutLastMark? mark s with
    | some p =>
      rw [hs] at h
      cases h
      obtain ⟨hsplit, hb⟩ := ih hs
      exact ⟨by rw [hsplit]; rfl, hb⟩
    | none =>
      rw [hs] at h
      obtain ⟨rest, hrest, he⟩ := Option.map_eq_some_iff.1 h
      cases he
      obtain ⟨m, mark', rfl⟩ := List.exists_cons_of_ne_nil hmark
      have hsplit := after?_eq_some.1 hrest
      have hnone := not_contains_of_cutLastMark? hmark hs
      rw [List.cons_append] at hsplit
      rw [(List.cons.inj hsplit).2] at hnone
      exact ⟨hsplit, (not_contains_append hnone).2⟩

/-- The parts of a pattern join to it, and the braces at their ends are the outermost ones. -/
theorem parts?_eq_some {s prepend body append : Text}
    (h : parts? s = some (prepend, body, append)) :
    prepend ++ body ++ append = s ∧ contains openMark prepend = false ∧
      contains closeMark append = false := by
  unfold parts? at h
  obtain ⟨start, hstart, h⟩ := Option.bind_eq_some_iff.1 h
  obtain ⟨⟨before, after⟩, hlast, h⟩ := Option.bind_eq_some_iff.1 h
  dsimp only at h
  split at h
  · cases h
  · next hle =>
    obtain ⟨rfl, rfl, rfl⟩ : s.take start = prepend ∧
        (s.take (before.length + 2)).drop start = body ∧ after = append := by
      simpa using h
    obtain ⟨p, hp, rfl⟩ := Option.map_eq_some_iff.1 hstart
    obtain ⟨hsplit, hafter⟩ := cutLastMark?_eq_some (by decide) hlast
    have hprepend : s.take p.1.length = p.1 := by
      rw [cut?_eq_some hp, List.append_assoc, List.take_left]
    have hwhole : s.take (before.length + 2) ++ after = s := by
      conv_lhs => rw [hsplit]
      conv_rhs => rw [hsplit]
      rw [List.take_append_of_le_length (by simp [closeMark])]
      rw [List.take_of_length_le (by simp [closeMark])]
    refine ⟨?_, ?_, hafter⟩
    · have htake : s.take p.1.length =
          (s.take (before.length + 2)).take p.1.length := by
        rw [List.take_take, Nat.min_eq_left (by omega)]
      rw [htake, List.take_append_drop, hwhole]
    · rw [hprepend]
      exact not_contains_of_cut? (by decide) hp

/-! ## What the forms read -/

/-- What a form reads stands between braces in the text. -/
def ReadsBraced (length? : Text → Option Nat) : Prop :=
  ∀ s n, length? s = some n → ∃ x, s.take n = braced x

theorem ReadsBraced.mem_readings {length? : Text → Option Nat} (h : ReadsBraced length?)
    {s t : Text} (ht : t ∈ readings (formOf length?) s) : ∃ x, t = braced x ∧ braced x <:+: s := by
  obtain ⟨u, hu⟩ := Text.mem_readings.1 ht
  obtain ⟨a, b, n, rfl, hform⟩ := exists_of_mem_piecesFrom hu
  unfold formOf at hform
  obtain ⟨k, hk, he⟩ := Option.map_eq_some_iff.1 hform
  obtain ⟨rfl, rfl⟩ := Prod.mk.inj he
  obtain ⟨x, hx⟩ := h _ _ hk
  refine ⟨x, hx, ?_⟩
  rw [← hx]
  exact (List.take_prefix k b).isInfix.trans (List.suffix_append a b).isInfix

theorem take_braced {s x : Text} {n : Nat} (rest : Text) (hs : s = braced x ++ rest)
    (hn : n = x.length + 4) : s.take n = braced x := by
  rw [hs, hn, ← length_braced, List.take_left]

theorem tightLength?_eq_some {s : Text} {n : Nat} (h : tightLength? s = some n) :
    ∃ a b, s = a ++ closeMark ++ b ∧ a.length = n := by
  induction s generalizing n with
  | nil => cases h
  | cons c s ih =>
    rw [tightLength?] at h
    split at h
    · cases h
    · split at h
      · next hclose =>
        obtain ⟨b, rfl⟩ := startsWith_iff.1 hclose
        exact ⟨[c], b, rfl, Option.some.inj h⟩
      · obtain ⟨k, hk, rfl⟩ := Option.map_eq_some_iff.1 h
        obtain ⟨a, b, rfl, rfl⟩ := ih hk
        exact ⟨c :: a, b, rfl, rfl⟩

theorem looseTail?_eq_some {s : Text} {n : Nat} (h : looseTail? s = some n) :
    ∃ a b, s = a ++ closeMark ++ b ∧ a.length = n := by
  induction s generalizing n with
  | nil => cases h
  | cons c s ih =>
    rw [looseTail?] at h
    split at h
    · next hclose =>
      obtain ⟨b, rfl⟩ := startsWith_iff.1 (Bool.and_eq_true_iff.1 hclose).2
      exact ⟨[c], b, rfl, Option.some.inj h⟩
    · split at h
      · cases h
      · obtain ⟨k, hk, rfl⟩ := Option.map_eq_some_iff.1 h
        obtain ⟨a, b, rfl, rfl⟩ := ih hk
        exact ⟨c :: a, b, rfl, rfl⟩

theorem looseLength?_eq_some {s : Text} {n : Nat} (h : looseLength? s = some n) :
    ∃ a b, s = a ++ closeMark ++ b ∧ a.length = n := by
  cases s with
  | nil => cases h
  | cons c s =>
    rw [looseLength?] at h
    split at h
    · cases h
    · obtain ⟨k, hk, rfl⟩ := Option.map_eq_some_iff.1 h
      obtain ⟨a, b, rfl, rfl⟩ := looseTail?_eq_some hk
      exact ⟨c :: a, b, rfl, rfl⟩

theorem chainLength?_eq_some {s : Text} {n : Nat} (h : chainLength? s = some n) :
    ∃ a b, s = a ++ spacedClose ++ b ∧ a.length = n := by
  induction s generalizing n with
  | nil => cases h
  | cons c s ih =>
    rw [chainLength?] at h
    split at h
    · next hclose =>
      obtain ⟨b, hb⟩ := startsWith_iff.1 hclose
      exact ⟨[], b, hb, Option.some.inj h⟩
    · split at h
      · cases h
      · obtain ⟨k, hk, rfl⟩ := Option.map_eq_some_iff.1 h
        obtain ⟨a, b, rfl, rfl⟩ := ih hk
        exact ⟨c :: a, b, rfl, rfl⟩

theorem readsBraced_replacement : ReadsBraced replacementLength? := by
  intro s n h
  unfold replacementLength? at h
  split at h
  · next k hk =>
    obtain ⟨token, htoken, rfl⟩ := Option.map_eq_some_iff.1 hk
    obtain rfl := Option.some.inj h
    have hstart : startsWith token s = true := List.find?_some (p := fun t => startsWith t s) htoken
    obtain ⟨rest, rfl⟩ := startsWith_iff.1 hstart
    obtain ⟨name, -, hname⟩ := reserved_eq (List.mem_of_find?_eq_some htoken)
    rw [List.take_left, hname, reference_eq_braced]
    exact ⟨_, rfl⟩
  · obtain ⟨inside, hinside, h⟩ := Option.bind_eq_some_iff.1 h
    have hs := after?_eq_some.1 hinside
    have hfound : ∃ a b, inside = a ++ closeMark ++ b ∧ n = a.length + 4 := by
      split at h
      · next k hk =>
        obtain ⟨a, b, hab, rfl⟩ := tightLength?_eq_some hk
        exact ⟨a, b, hab, (Option.some.inj h).symm⟩
      · obtain ⟨k, hk, rfl⟩ := Option.map_eq_some_iff.1 h
        obtain ⟨a, b, hab, rfl⟩ := looseLength?_eq_some hk
        exact ⟨a, b, hab, rfl⟩
    obtain ⟨a, b, rfl, hn⟩ := hfound
    exact ⟨a, take_braced b (by rw [hs]; simp [braced, openMark, closeMark]) hn⟩

theorem readsBraced_expression : ReadsBraced expressionLength? := by
  intro s n h
  obtain ⟨inside, hinside, h⟩ := Option.bind_eq_some_iff.1 h
  obtain ⟨k, hk, h⟩ := Option.bind_eq_some_iff.1 h
  obtain ⟨a, b, rfl, rfl⟩ := chainLength?_eq_some hk
  split at h
  · cases h
  · refine ⟨' ' :: (a ++ [' ']), take_braced b ?_ ?_⟩
    · rw [after?_eq_some.1 hinside]
      simp [braced, spacedOpen, spacedClose]
    · rw [← Option.some.inj h]
      simp

theorem readsBraced_reference : ReadsBraced referenceLength? := by
  intro s n h
  obtain ⟨inside, hinside, h⟩ := Option.bind_eq_some_iff.1 h
  dsimp only at h
  split at h
  · next hname =>
    obtain ⟨rest, hrest⟩ := startsWith_iff.1 hname.2
    refine ⟨' ' :: (inside.takeWhile isWord ++ [' ']), take_braced rest ?_ ?_⟩
    · calc s = spacedOpen ++ (inside.takeWhile isWord ++ inside.dropWhile isWord) := by
            rw [List.takeWhile_append_dropWhile]
            exact after?_eq_some.1 hinside
        _ = _ := by
            rw [hrest]
            simp [braced, spacedOpen, spacedClose]
    · rw [← Option.some.inj h]
      simp
  · cases h

/-! ## Two layers of masks -/

theorem Unnumbered.of_part {stem t s : Text} (h : Unnumbered stem s) (hts : t <:+: s) :
    Unnumbered stem t := by
  obtain ⟨a, b, rfl⟩ := hts
  exact h.of_append.1.of_append.2

theorem hides_masksFor {stem s : Text} {tokens : List Text} (hs : stem ∈ stems)
    (hfree : Unnumbered stem s) (ht : ∀ t ∈ tokens, ∃ x, t = braced x ∧ braced x <:+: s) :
    Masks.Hides stem (masksFor (maskOf stem) tokens) where
  stem_mem := hs
  token := fun p hp => by
    obtain ⟨x, hx, hpart⟩ := ht p.1 (mem_masksFor hp).1
    exact ⟨⟨x, hx⟩, hx ▸ hfree.of_part hpart⟩
  word := fun p hp => (mem_masksFor hp).2

theorem nodup_masksFor (stem : Text) (tokens : List Text) :
    ((masksFor (maskOf stem) tokens).map (·.2)).Nodup := by
  rw [values_masksFor]
  exact List.nodup_range.map (maskOf_injective stem)

theorem Veiled.exists_part {masks : Masks} {stem m s x : Text} (hm : masks.Hides stem)
    (h : Veiled masks m s) (hx : braced x <:+: m) :
    ∃ y, Veiled masks (braced x) (braced y) ∧ braced y <:+: s := by
  obtain ⟨a, b, rfl⟩ := hx
  obtain ⟨s₁, y, s₂, rfl, hy⟩ := h.exists_braced hm
  exact ⟨y, hy, s₁, s₂, rfl⟩

/-- The queries of a text, with the masks that hide them. -/
def queriesIn (body : Text) : Masks :=
  masksFor queryMask (distinct (readings replacementForm body))

/-- The references of a text whose queries are hidden, with the masks that hide them. -/
def referencesIn (body : Text) : Masks :=
  masksFor referenceMask (distinct (readings referenceForm ((queriesIn body).hide body)))

/-- The text that the expressions are read from. -/
def maskedText (body : Text) : Text := (referencesIn body).hide ((queriesIn body).hide body)

section

variable {body : Text} (hu : Unmasked body)
include hu

theorem hides_queriesIn : (queriesIn body).Hides queryWord :=
  hides_masksFor (by decide) (unnumbered_of_not_contains hu.2) fun _ ht =>
    readsBraced_replacement.mem_readings (mem_distinct.1 ht)

theorem veiled_queriesIn : Veiled (queriesIn body) ((queriesIn body).hide body) body :=
  veiled_hide (hides_queriesIn hu) body

theorem unnumbered_queried : Unnumbered referenceWord ((queriesIn body).hide body) := by
  refine (veiled_queriesIn hu).unnumbered (fun p hp => (hides_queriesIn hu).isMask hp) (by decide)
    (fun p hp c hc hmem => ?_) (unnumbered_of_not_contains hu.1)
  obtain ⟨i, hi⟩ := (hides_queriesIn hu).word p hp
  obtain rfl : 'V' = c := Option.some.inj hc
  rw [hi, maskOf] at hmem
  simp only [List.mem_cons, List.mem_append, List.not_mem_nil, or_false] at hmem
  rcases hmem with h | h | h | h | h | h
  · exact absurd h (by decide)
  · exact absurd h (by decide)
  · exact absurd h (by decide)
  · exact (ne_of_isDigit (isDigit_natText h)).2.1 rfl
  · exact absurd h (by decide)
  · exact absurd h (by decide)

theorem hides_referencesIn : (referencesIn body).Hides referenceWord :=
  hides_masksFor (by decide) (unnumbered_queried hu) fun _ ht =>
    readsBraced_reference.mem_readings (mem_distinct.1 ht)

theorem veiled_referencesIn :
    Veiled (referencesIn body) (maskedText body) ((queriesIn body).hide body) :=
  veiled_hide (hides_referencesIn hu) _

/-- An expression is a part of the text between braces, behind two layers of masks. -/
theorem exists_shown {e : Text} (he : e ∈ expressions (referencesIn body) (maskedText body)) :
    ∃ x y, Veiled (referencesIn body) e (braced x) ∧ braced x <:+: (queriesIn body).hide body ∧
      Veiled (queriesIn body) (braced x) (braced y) ∧ braced y <:+: body := by
  have hlayer : ∃ x, Veiled (referencesIn body) e (braced x) ∧
      braced x <:+: (queriesIn body).hide body := by
    rcases mem_expressions.1 he with he | ⟨p, hp, -, rfl⟩
    · obtain ⟨z, rfl, hz⟩ := readsBraced_expression.mem_readings he
      exact (veiled_referencesIn hu).exists_part (hides_referencesIn hu) hz
    · obtain ⟨x, hx, hpart⟩ :=
        readsBraced_reference.mem_readings (mem_distinct.1 (mem_masksFor hp).1)
      have hmask := veiled_token hp
      rw [hx] at hmask
      exact ⟨x, hmask, hpart⟩
  obtain ⟨x, hx, hpart⟩ := hlayer
  obtain ⟨y, hy, hbody⟩ := (veiled_queriesIn hu).exists_part (hides_queriesIn hu) hpart
  exact ⟨x, y, hx, hpart, hy, hbody⟩

/-- An expression is revealed as it is written, and flagged when a query stands in it. -/
theorem revealed_expression {e : Text}
    (he : e ∈ expressions (referencesIn body) (maskedText body)) :
    ∃ y, braced y <:+: body ∧ revealed (queriesIn body) (referencesIn body) e =
      (braced y,
        (distinct (readings replacementForm body)).any fun t => contains t (braced y)) := by
  obtain ⟨x, y, hx, hpart, hy, hbody⟩ := exists_shown hu he
  refine ⟨y, hbody, ?_⟩
  have hshown : (referencesIn body).reveal e = braced x :=
    hx.reveal (hides_referencesIn hu) (nodup_masksFor referenceWord _)
      ((unnumbered_queried hu).of_part hpart)
  have hwritten : (queriesIn body).reveal (braced x) = braced y :=
    hy.reveal (hides_queriesIn hu) (nodup_masksFor queryWord _)
      ((unnumbered_of_not_contains hu.2).of_part hbody)
  have hkeys : ∀ t, t ∈ distinct (readings replacementForm body) ↔
      ∃ p ∈ queriesIn body, p.1 = t := by
    intro t
    have hkeys : Pairs.keys (queriesIn body) = distinct (readings replacementForm body) :=
      keys_masksFor
    rw [← hkeys]
    exact List.mem_map
  have hflag : (braced y != braced x) =
      (distinct (readings replacementForm body)).any fun t => contains t (braced y) := by
    rw [Bool.eq_iff_iff, bne_iff_ne, List.any_eq_true]
    constructor
    · intro hne
      obtain ⟨p, hp, -, hcontains⟩ := hy.eq_or_contains.resolve_left (Ne.symm hne)
      exact ⟨p.1, (hkeys _).2 ⟨p, hp, rfl⟩, hcontains⟩
    · rintro ⟨t, ht, hcontains⟩ heq
      -- No query is left in the text whose queries are hidden.
      obtain ⟨p, hp, rfl⟩ := (hkeys t).1 ht
      rw [heq, contains_iff_isInfix] at hcontains
      have hleft := contains_iff_isInfix.2 (hcontains.trans hpart)
      rw [not_contains_hide (hides_queriesIn hu) hp] at hleft
      cases hleft
  unfold revealed
  simp only [hshown, hwritten, hflag]

end

/-! ## Templates -/

theorem nodup_filtersOf (queries references : Masks) (masked : Text) :
    ((filtersOf queries references masked).map (·.1)).Nodup := by
  have hfold : ∀ (es : List Text) (found : List (Text × Bool)), (found.map (·.1)).Nodup →
      ((es.foldl (addFilter queries references) found).map (·.1)).Nodup := by
    intro es
    induction es with
    | nil => exact fun found h => h
    | cons e es ih =>
      intro found h
      refine ih _ ?_
      unfold addFilter
      split
      · exact h
      · split
        · exact h
        · next hnew =>
          rw [List.map_append, List.map_singleton, List.nodup_append]
          refine ⟨h, List.nodup_singleton _, fun t ht u hu e => hnew ?_⟩
          rw [List.mem_singleton.1 hu] at e
          exact List.elem_iff.2 (e ▸ ht)
  exact hfold _ [] List.nodup_nil

/-- A placeholder is a part of the text between double braces. -/
structure IsPlaceholder (body t : Text) : Prop where
  part : contains t body = true
  opens : openMark <+: t
  closes : closeMark <:+ t

theorem isPlaceholder_braced {body x : Text} (h : braced x <:+: body) :
    IsPlaceholder body (braced x) where
  part := contains_iff_isInfix.2 h
  opens := ⟨x ++ closeMark, rfl⟩
  closes := ⟨openMark ++ x, by simp [braced, openMark, closeMark]⟩

/-- A template keeps the text that it is read from, with placeholders that stand in it. -/
structure Keeps (s body : Text) (m : Modifier) : Prop where
  literal : m.raw = none ∧ m.val = none
  pattern : m.pattern = some body
  text : m.prepend.getD [] ++ body ++ m.append.getD [] = s
  opens : contains openMark (m.prepend.getD []) = false
  closes : contains closeMark (m.append.getD []) = false
  replace : ∀ t ∈ m.replace, IsPlaceholder body t
  filters : ∀ t ∈ m.filters, IsPlaceholder body t
  nodup : m.replace.Nodup ∧ m.filters.Nodup
  flags : m.hasReplace = m.filters.map fun f => m.replace.any fun t => contains t f

/-- A template by what is read from its text. -/
theorem compileTemplate_eq (prepend body append : Text) :
    compileTemplate prepend body append =
      { Modifier.empty with
        prepend := nonEmpty prepend
        pattern := some body
        append := nonEmpty append
        replace := distinct (readings replacementForm body)
        filters := (filtersOf (queriesIn body) (referencesIn body) (maskedText body)).map (·.1)
        hasReplace :=
          (filtersOf (queriesIn body) (referencesIn body) (maskedText body)).map (·.2) } :=
  rfl

theorem keeps_compileTemplate {s prepend body append : Text} (hu : Unmasked body)
    (h : parts? s = some (prepend, body, append)) :
    Keeps s body (compileTemplate prepend body append) := by
  obtain ⟨htext, hopens, hcloses⟩ := parts?_eq_some h
  have hfound : ∀ p ∈ filtersOf (queriesIn body) (referencesIn body) (maskedText body),
      ∃ y, braced y <:+: body ∧ p =
        (braced y, (distinct (readings replacementForm body)).any fun t =>
          contains t (braced y)) := by
    intro p hp
    obtain ⟨e, he, -, hrevealed⟩ := mem_filtersOf hp
    obtain ⟨y, hbody, hy⟩ := revealed_expression hu he
    exact ⟨y, hbody, hrevealed.trans hy⟩
  have hnodup := nodup_filtersOf (queriesIn body) (referencesIn body) (maskedText body)
  rw [compileTemplate_eq]
  generalize filtersOf (queriesIn body) (referencesIn body) (maskedText body) = filters
    at hfound hnodup
  refine ⟨⟨rfl, rfl⟩, rfl, ?_, ?_, ?_, fun t ht => ?_, fun t ht => ?_,
    ⟨nodup_distinct _, hnodup⟩, ?_⟩
  · show (nonEmpty prepend).getD [] ++ body ++ (nonEmpty append).getD [] = s
    rw [nonEmpty_getD, nonEmpty_getD, htext]
  · show contains openMark ((nonEmpty prepend).getD []) = false
    rw [nonEmpty_getD, hopens]
  · show contains closeMark ((nonEmpty append).getD []) = false
    rw [nonEmpty_getD, hcloses]
  · obtain ⟨x, rfl, hx⟩ := readsBraced_replacement.mem_readings (mem_distinct.1 ht)
    exact isPlaceholder_braced hx
  · obtain ⟨p, hp, rfl⟩ := List.mem_map.1 ht
    obtain ⟨y, hbody, rfl⟩ := hfound p hp
    exact isPlaceholder_braced hbody
  · show filters.map (·.2) = (filters.map (·.1)).map _
    rw [List.map_map]
    refine List.map_congr_left fun p hp => ?_
    obtain ⟨y, -, rfl⟩ := hfound p hp
    rfl

/-- What a trimmed pattern is compiled to. -/
inductive Compiles (s : Text) : Modifier → Prop where
  | empty (h : s = []) : Compiles s .empty
  | raw (h : isQuoted s = true) : Compiles s (.ofRaw (trim (unquote s)))
  | val : Compiles s (.ofVal s)
  | template {body : Text} {m : Modifier} (h : Keeps s body m) : Compiles s m

theorem keeps_reserved {s : Text} (h : s ∈ reservedTokens) :
    Keeps s s { Modifier.empty with pattern := some s, replace := [s] } := by
  obtain ⟨name, -, rfl⟩ := reserved_eq h
  refine ⟨⟨rfl, rfl⟩, rfl, List.append_nil _, rfl, rfl, fun t ht => ?_, List.forall_mem_nil _,
    ⟨List.nodup_singleton _, List.nodup_nil⟩, rfl⟩
  rw [List.mem_singleton.1 ht, reference_eq_braced]
  exact isPlaceholder_braced (List.infix_refl _)

/-- **A pattern** that spells no mask word is compiled without a fault, and a template keeps its
text. -/
theorem compile_pattern {pattern : Text} (h : Unmasked pattern) :
    (compile pattern).fault? = none ∧ Compiles (trim pattern) (compile pattern) := by
  refine ⟨(Modifier.sound_compile pattern).parts, ?_⟩
  have hpart : trim pattern <:+: pattern := by
    obtain ⟨a, b, -, -, hpattern⟩ := exists_eq_trimOf isBlank pattern
    exact ⟨a, b, hpattern.symm⟩
  unfold compile
  dsimp only
  split
  · next hblank => exact .empty hblank
  · split
    · next hquoted => exact .raw hquoted
    · split
      · next hreserved => exact .template (keeps_reserved (List.elem_iff.1 hreserved))
      · split
        · exact .val
        · next prepend body append hparts =>
          have hbody : body <:+: trim pattern := by
            rw [← (parts?_eq_some hparts).1]
            exact ⟨prepend, append, rfl⟩
          have hu : Unmasked body := by
            have hnot : ∀ w, contains w pattern = false → contains w body = false := by
              intro w hw
              refine Bool.eq_false_iff.2 fun hc => ?_
              have hwhole := ((contains_iff_isInfix.1 hc).trans hbody).trans hpart
              rw [contains_iff_isInfix.2 hwhole] at hw
              cases hw
            exact ⟨hnot _ h.1, hnot _ h.2⟩
          exact .template (keeps_compileTemplate hu hparts)

/-- A query inside of an expression, and a brace that closes nothing. -/
def nestedPattern : Text :=
  "no. \x7b\x7b \x7b\x7bid\x7d\x7d|upper \x7d\x7d (\x7b\x7bid\x7d\x7d \x7d)"

theorem compile_pattern_nested :
    (compile nestedPattern).filters = ["\x7b\x7b \x7b\x7bid\x7d\x7d|upper \x7d\x7d".toList] ∧
      (compile nestedPattern).hasReplace = [true] ∧ (compile nestedPattern).fault? = none ∧
      Compiles (trim nestedPattern) (compile nestedPattern) :=
  ⟨by decide +kernel, by decide +kernel, compile_pattern (by decide)⟩

end Crosswalk.Template
