import Crosswalk.Host.Bundled
import Crosswalk.Proofs.Template.Ends
import Crosswalk.Proofs.Template.Phases
import Crosswalk.Proofs.Text.Blank

/-!
# A value between two texts

The pattern `prepend{{ value }}append` writes the value that it reads, with the references of that
value filled once more:

    evaluate … = .ok (some (prepend ++ v ++ append)) ↔ v ≠ [] ∧ fill refs v = v      (evaluate_value_iff)

where `refs` are the references to the known variables. So a value stays what it is as long as it
spells no reference to one of them.
-/

namespace Crosswalk.Template

open Text

/-! ## The variable of the value -/

theorem get?_texts_put (k s : Text) (vs : Variables) :
    Pairs.get? k (Variables.texts (vs.put k (some s))) = some s := by
  unfold Variables.texts
  induction vs with
  | nil => simp [Pairs.put, Pairs.get?]
  | cons p vs ih =>
    obtain ⟨l, w⟩ := p
    rw [Pairs.put]
    split
    · next e =>
      rw [List.filterMap_cons_some (by rfl), Pairs.get?, if_pos e]
    · next e =>
      cases w with
      | none => rw [List.filterMap_cons_none (by rfl), ih]
      | some t => rw [List.filterMap_cons_some (by rfl), Pairs.get?, if_neg e, ih]

/-- The variable `value` is the text that is read. -/
theorem get?_value (context : Context) (v : Text) :
    Pairs.get? ("value" : Text) (context.scope (.ofValue (.str v))).vars = some v :=
  get?_texts_put "value" v context.vars

theorem fill_of_not_contains {ps : Pairs Text Text} {s : Text}
    (h : ∀ p ∈ ps, contains p.1 s = false) : fill ps s = s := by
  induction ps with
  | nil => rfl
  | cons p ps ih =>
    rw [fill_cons, replaceAll_of_not_contains (h p List.mem_cons_self)]
    exact ih fun q hq => h q (List.mem_cons_of_mem p hq)

/-! ## The compiled pattern -/

/-- A text that keeps its start when it is trimmed, and opens no quote. -/
def KeptStart (s : Text) : Prop := ∀ c ∈ s.head?, isBlank c = false ∧ isQuoteMark c = false

def KeptEnd (s : Text) : Prop := ∀ c ∈ s.getLast?, isBlank c = false ∧ isQuoteMark c = false

instance (s : Text) : Decidable (KeptStart s) :=
  decidable_of_iff (s.head?.all (fun c => !isBlank c && !isQuoteMark c) = true) (by
    unfold KeptStart
    cases s.head? <;> simp)

instance (s : Text) : Decidable (KeptEnd s) :=
  decidable_of_iff (s.getLast?.all (fun c => !isBlank c && !isQuoteMark c) = true) (by
    unfold KeptEnd
    cases s.getLast? <;> simp)

/-- The template of `prepend{{ value }}append`. -/
def valueModifier (prepend append : Text) : Modifier :=
  { Modifier.empty with
    prepend := nonEmpty prepend
    pattern := some (reference "value")
    append := nonEmpty append
    replace := [reference "value"] }

/-- The layout of `prepend{{ value }}append`. -/
def valueLayout (prepend append : Text) : Layout :=
  [.literal prepend, .token (.named "value"), .literal append]

section

variable {prepend append : Text}

theorem text_valueLayout :
    (valueLayout prepend append).text = prepend ++ reference "value" ++ append := by
  simp [valueLayout, Layout.text, Layout.write, Segment.write]

theorem ends_valueLayout : Ends (valueLayout prepend append) [.literal prepend]
    [.token (.named "value")] [.literal append] where
  split := rfl
  before := by simp [Segment.isLiteral]
  after := by simp [Segment.isLiteral]
  first := ⟨_, [], rfl, rfl⟩
  last := ⟨[], _, rfl, rfl⟩

variable (hp : Bare prepend) (ha : Bare append) (hs : KeptStart prepend) (he : KeptEnd append)

include hp ha in
theorem proper_valueLayout : ∀ seg ∈ valueLayout prepend append, seg.Proper := by
  intro seg h
  simp only [valueLayout, List.mem_cons, List.not_mem_nil, or_false] at h
  rcases h with rfl | rfl | rfl
  · exact hp
  · exact ⟨ProperName.value, by decide⟩
  · exact ha

include hs in
/-- The first character is that of `prepend`, or a brace. -/
theorem head_value {c : Char} (h : c ∈ (prepend ++ reference "value" ++ append).head?) :
    isBlank c = false ∧ isQuoteMark c = false := by
  cases prepend with
  | nil =>
    have : c = '{' := (Option.some.inj h).symm
    subst this
    decide
  | cons d s => exact hs c h

include he in
/-- The last character is that of `append`, or a brace. -/
theorem last_value {c : Char} (h : c ∈ (prepend ++ reference "value" ++ append).getLast?) :
    isBlank c = false ∧ isQuoteMark c = false := by
  rw [List.getLast?_append, Option.mem_def] at h
  cases hl : append.getLast? with
  | none =>
    have hlast : (reference "value").getLast? = some '}' := by decide
    rw [hl, Option.none_or, List.getLast?_append, hlast, Option.some_or] at h
    rw [← Option.some.inj h]
    decide
  | some d =>
    rw [hl] at h
    exact he c (hl.trans h)

include hp ha hs he

theorem compile_value : compile (prepend ++ reference "value" ++ append) =
    valueModifier prepend append := by
  have htrim : trim (prepend ++ reference "value" ++ append) =
      prepend ++ reference "value" ++ append := by
    refine trim_of_ends ?_ ?_
    · cases h : (prepend ++ reference "value" ++ append).head? with
      | none => rfl
      | some c => simpa using (head_value hs h).1
    · cases h : (prepend ++ reference "value" ++ append).getLast? with
      | none => rfl
      | some c => simpa using (last_value he h).1
  have hquoted : isQuoted (prepend ++ reference "value" ++ append) = false := by
    unfold isQuoted
    split
    · next q rest h =>
      have hq : isBlank q = false ∧ isQuoteMark q = false :=
        head_value hs (show q ∈ (prepend ++ reference "value" ++ append).head? by rw [h]; rfl)
      rw [hq.2, Bool.false_and]
    · rfl
  have hcore : compileTemplate [] (reference "value") [] = valueModifier [] [] := by
    decide +kernel
  rw [← text_valueLayout] at htrim hquoted ⊢
  rw [compile_ends (proper_valueLayout hp ha) ends_valueLayout htrim hquoted]
  have htext : Layout.text [.token (.named "value")] = reference "value" := by
    simp [Layout.text, Layout.write, Segment.write]
  have hlit : ∀ s, Layout.text [.literal s] = s := fun s => by
    simp [Layout.text, Layout.write, Segment.write]
  rw [htext, hlit, hlit, show compileTemplate prepend (reference "value") append =
    { compileTemplate [] (reference "value") [] with
      prepend := nonEmpty prepend, append := nonEmpty append } from rfl, hcore]
  rfl

end

/-! ## What it writes -/

theorem fillAll_value [Host] {prepend append v : Text} {scope : Filter.Scope} (lookup : Lookup)
    (h : Pairs.get? ("value" : Text) scope.vars = some v) :
    fillAll (valueModifier prepend append) scope lookup =
      .ok (fill (references scope.vars) v) := by
  have hqueried : queried (valueModifier prepend append) lookup = [(reference "value", [])] := by
    cases lookup with
    | none => rfl
    | some find => rfl
  have hqueries : preferReferences (references scope.vars) [(reference "value", [])] =
      [(reference "value", v)] := by
    unfold preferReferences
    rw [List.map_singleton, get?_references, h]
    rfl
  have hself : fill [(reference "value", v)] (reference "value") = v := by
    show replaceAll (reference "value") v (reference "value") = v
    have hne : reference "value" ≠ [] := by decide
    have : replaceAll (reference "value") v (reference "value" ++ []) = v ++ _ :=
      replaceAll_append_self [] hne
    rwa [List.append_nil, replaceAll_nil hne, List.append_nil] at this
  have hchains : chainsOf (valueModifier prepend append) (references scope.vars) = [] := rfl
  have hpattern : (valueModifier prepend append).pattern.getD [] = reference "value" := rfl
  unfold fillAll
  simp only [hqueried, hqueries, hchains, hpattern, hself, if_true]
  rfl

/-- The template has no static text, so all it needs is a value. -/
theorem saysMore_value (prepend append s : Text) :
    saysMore (valueModifier prepend append) s = (s != []) := by
  have hstatic : (valueModifier prepend append).staticText = [] := by
    show (valueModifier [] []).staticText = []
    decide
  unfold saysMore
  rw [hstatic]
  exact Bool.and_true _

section

variable {prepend append : Text} (hp : Bare prepend) (ha : Bare append) (hs : KeptStart prepend)
  (he : KeptEnd append)

include hp ha hs he

/-- **The value is filled once more.** -/
theorem evaluate_value [Host] (v : Text) (context : Context) (lookup : Lookup) (asXml : Bool) :
    (compile (prepend ++ reference "value" ++ append)).evaluate (.ofValue (.str v)) context lookup
        asXml =
      .ok (if fill (references (context.scope (.ofValue (.str v))).vars) v = [] then none
        else some (prepend ++ fill (references (context.scope (.ofValue (.str v))).vars) v ++
          append)) := by
  have hwrap : ∀ s, (valueModifier prepend append).wrap s = prepend ++ s ++ append := by
    intro s
    show (nonEmpty prepend).getD [] ++ s ++ (nonEmpty append).getD [] = _
    rw [nonEmpty_getD, nonEmpty_getD]
  have hpattern : (valueModifier prepend append).pattern = some (reference "value") := rfl
  rw [compile_value hp ha hs he, evaluate_template ⟨rfl, rfl⟩ hpattern (by decide)
    (Or.inl (by decide)), fillAll_value lookup (get?_value context v)]
  refine congrArg Except.ok ?_
  simp only [saysMore_value, hwrap]
  split
  · next h => rw [if_neg (bne_iff_ne.1 h)]
  · next h => rw [if_pos (by simpa using h)]

/-- **When a value is inert.** A value is written as it is, between the two texts, exactly when it
is not empty and filling the references to the known variables changes nothing in it; so it is
when it spells no such reference. -/
theorem evaluate_value_iff [Host] (v : Text) (context : Context) (lookup : Lookup) (asXml : Bool) :
    ((compile (prepend ++ reference "value" ++ append)).evaluate (.ofValue (.str v)) context lookup
        asXml = .ok (some (prepend ++ v ++ append)) ↔
      v ≠ [] ∧ fill (references (context.scope (.ofValue (.str v))).vars) v = v) ∧
    ((∀ p ∈ (context.scope (.ofValue (.str v))).vars, contains (reference p.1) v = false) →
      fill (references (context.scope (.ofValue (.str v))).vars) v = v) := by
  constructor
  · rw [evaluate_value hp ha hs he]
    split
    · next h =>
      refine iff_of_false (fun e => by cases e) fun ⟨hne, hfill⟩ => hne (hfill.symm.trans h)
    · next h =>
      constructor
      · intro e
        have e := Option.some.inj (Except.ok.inj e)
        have e := List.append_cancel_left (List.append_cancel_right e)
        exact ⟨fun hv => h (e.trans hv), e⟩
      · rintro ⟨_, hfill⟩
        rw [hfill]
  · intro h
    refine fill_of_not_contains fun p hp => ?_
    obtain ⟨q, hq, rfl⟩ := List.mem_map.1 hp
    exact h q hq

end

theorem evaluate_value_iff_url :
    (compile ("http://x/" ++ reference "value" ++ ".html")).evaluate (.ofValue (.str "\x7by\x7d"))
      ⟨[("year", some "1999")], []⟩ none false = .ok (some "http://x/\x7by\x7d.html") := by
  obtain ⟨hiff, hinert⟩ := @evaluate_value_iff "http://x/" ".html" (by decide) (by decide)
    (by decide) (by decide) _ "\x7by\x7d" ⟨[("year", some "1999")], []⟩ none false
  exact hiff.2 ⟨by decide, hinert (by decide +kernel)⟩

/-- A value that spells a reference to a known variable is written with the variable in its
place. -/
theorem value_is_filled :
    (compile ("http://x/" ++ reference "value" ++ ".html")).evaluate
        (.ofValue (.str "\x7b\x7b year \x7d\x7d")) ⟨[("year", some "1999")], []⟩ none false =
      .ok (some "http://x/1999.html") := by
  decide +kernel

end Crosswalk.Template
