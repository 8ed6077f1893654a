import Crosswalk.Proofs.Mapping.Compose
import Crosswalk.Proofs.Mapping.Load
import Crosswalk.Proofs.Outcome

/-!
# How mappings come about

A mapping that is loaded is what its text says alone, or that over its base mapper, which came
about one level below (`within_eq_ok`). More room below changes nothing (`Built.of_le`), and no
setting comes twice in its section (`keyed_load`).
-/

namespace Crosswalk

open Pairs Text

/-! ## Settings -/

theorem nodup_keys_ofList {α : Type} (ps : Pairs Text α) : (keys (ofList ps)).Nodup :=
  nodup_keys_merge List.nodup_nil

theorem keys_map {α β : Type} (f : Text × α → β) (m : Pairs Text α) :
    keys (m.map fun p => (p.1, f p)) = keys m := by
  simp [keys]

theorem nodup_keys_foldl {α β : Type} {f : Pairs Text α → β → Pairs Text α}
    (hf : ∀ m x, (keys m).Nodup → (keys (f m x)).Nodup) (xs : List β) {m : Pairs Text α}
    (hm : (keys m).Nodup) : (keys (xs.foldl f m)).Nodup := by
  induction xs generalizing m with
  | nil => exact hm
  | cons x xs ih => exact ih (hf m x hm)

theorem Info.keyed_named (name : Option Text) {ps : Pairs Text (Option Text)}
    (hps : (keys ps).Nodup) : (Info.named name ps).Keyed := by
  unfold Info.named
  dsimp only
  split
  · exact keyed_ofPairs hps
  · exact keyed_ofPairs (nodup_keys_put hps)
  · exact keyed_ofPairs hps

/-- The name of a mapping can only be its label. -/
theorem Info.exists_named (name : Option Text) (ps : Pairs Text (Option Text)) :
    ∃ qs, Info.named name ps = .ofPairs qs ∧
      ∀ k : Text, k ≠ "label" → get? k qs = get? k ps := by
  unfold Info.named
  dsimp only
  split
  · exact ⟨ps, rfl, fun k _ => rfl⟩
  · exact ⟨_, rfl, fun k hk => (get?_put _ _ _ _).trans (if_neg hk)⟩
  · exact ⟨ps, rfl, fun k _ => rfl⟩

theorem Info.mapper_named (name : Option Text) (ps : Pairs Text (Option Text)) :
    (Info.named name ps).mapper = (get? ("mapper" : Text) ps).join := by
  obtain ⟨qs, hnamed, hqs⟩ := Info.exists_named name ps
  rw [hnamed]
  exact congrArg Option.join (hqs "mapper" (by decide))

/-! ## The two ways to write a mapping -/

theorem nodup_blocksOf (items : List Item) : (keys (blocksOf items)).Nodup := by
  refine nodup_keys_foldl (fun m item hm => ?_) items List.nodup_nil
  cases item with
  | opened h =>
    dsimp only [putNew]
    split
    · exact hm
    · exact nodup_keys_put hm
  | line _ _ => exact hm
  | problem _ => exact hm

theorem keyed_ofItems (r : Resolver) (name : Option Text) (items : List Item) :
    (Config.ofItems r name items).Keyed where
  info := Info.keyed_named name (by rw [keys_map]; exact nodup_keys_ofList _)
  params := by
    simp only [Config.ofItems, keys_map]
    exact nodup_keys_ofList _
  tables := List.nodup_nil
  autofillers := by
    simp only [Config.ofItems, keys_map]
    exact nodup_blocksOf items

theorem nodup_settingsOf (root : Xml.Node) (section_ : Text) :
    (keys (settingsOf root section_)).Nodup := by
  unfold settingsOf
  split
  · exact List.nodup_nil
  · exact nodup_keys_ofList _

theorem nodup_addTerms (tables : Pairs Text (Pairs Text Text)) (table : Xml.Node)
    (h : (keys tables).Nodup) : (keys (addTerms tables table)).Nodup := by
  unfold addTerms
  split
  · exact h
  · exact h
  · exact nodup_keys_put h

theorem keyed_ofRoot (r : Resolver) (name : Option Text) (root : Xml.Node) :
    (Config.ofRoot r name root).Keyed where
  info := Info.keyed_named name (by rw [keys_map]; exact nodup_settingsOf root _)
  params := by
    simp only [Config.ofRoot, keys_map]
    exact nodup_settingsOf root _
  tables := nodup_keys_foldl nodup_addTerms _ List.nodup_nil
  autofillers := List.nodup_nil

theorem keyed_empty {i : Info} (hi : i.Keyed) (problems : List Problem) :
    Config.Keyed { Config.empty with info := i, problems := problems } :=
  ⟨hi, .nil, .nil, .nil⟩

theorem keyed_ofXml [Host] (r : Resolver) (name : Option Text) (text : Text) :
    (Config.ofXml r name text).Keyed := by
  unfold Config.ofXml
  split
  · exact keyed_ofRoot r name _
  · have hnone : (keys ([] : Pairs Text (Option Text))).Nodup := .nil
    exact keyed_empty (Info.keyed_named name hnone) _

/-! ## Loading -/

namespace Loader

/-- How a mapping comes about where `bases` base mappers may stand below it. -/
inductive Built [Host] (l : Loader) : Nat → Page → Config → Prop
  | single {bases : Nat} {p : Page} {own : Config} (hown : l.alone bases p = .ok own)
      (hm : mapper? own = none) : Built l bases p own
  | missing {bases : Nat} {p : Page} {own : Config} {m : Text}
      (hown : l.alone (bases + 1) p = .ok own) (hm : mapper? own = some m)
      (hb : l.base? m = none) :
      Built l (bases + 1) p { own with problems := own.problems ++ [.missingBase m] }
  | composed {bases : Nat} {p : Page} {own base : Config} {m content : Text}
      (hown : l.alone (bases + 1) p = .ok own) (hm : mapper? own = some m)
      (hb : l.base? m = some content) (hbase : Built l bases (l.basePage m content) base) :
      Built l (bases + 1) p (base.compose own)

variable {l : Loader} {p : Page} {bases : Nat} {c : Config}

theorem within_eq_ok [Host] : l.within bases p = .ok c ↔ Built l bases p c := by
  constructor
  · intro h
    induction bases generalizing p c with
    | zero =>
      rw [within_zero] at h
      obtain ⟨own, hown, h⟩ := bind_eq_ok.1 h
      cases hm : mapper? own with
      | none =>
        simp only [hm] at h
        exact Except.ok.inj h ▸ .single hown hm
      | some m => simp only [hm] at h; cases h
    | succ bases ih =>
      rw [within_succ] at h
      obtain ⟨own, hown, h⟩ := bind_eq_ok.1 h
      cases hm : mapper? own with
      | none =>
        simp only [hm] at h
        exact Except.ok.inj h ▸ .single hown hm
      | some m =>
        cases hb : l.base? m with
        | none =>
          simp only [hm, hb] at h
          exact Except.ok.inj h ▸ .missing hown hm hb
        | some content =>
          simp only [hm, hb] at h
          obtain ⟨base, hbase, rfl⟩ := map_eq_ok.1 h
          exact .composed hown hm hb (ih hbase)
  · intro h
    induction h with
    | @single bases p own hown hm =>
      cases bases with
      | zero => rw [within_zero, hown]; simp only [Except.bind, hm]
      | succ bases => rw [within_succ, hown]; simp only [Except.bind, hm]
    | missing hown hm hb => rw [within_succ, hown]; simp only [Except.bind, hm, hb]
    | composed hown hm hb _ ih =>
      rw [within_succ, hown]
      simp only [Except.bind, hm, hb, ih]
      rfl

/-- What is loaded with some room is the same with more. -/
theorem Built.of_le [Host] (h : Built l bases p c) {more : Nat} (hle : bases ≤ more) :
    Built l more p c := by
  induction h generalizing more with
  | single hown hm => exact .single (alone_of_le hle hown) hm
  | missing hown hm hb =>
    obtain ⟨more, rfl⟩ : ∃ n, more = n + 1 := ⟨more - 1, by omega⟩
    exact .missing (alone_of_le hle hown) hm hb
  | composed hown hm hb _ ih =>
    obtain ⟨more, rfl⟩ : ∃ n, more = n + 1 := ⟨more - 1, by omega⟩
    exact .composed (alone_of_le hle hown) hm hb (ih (by omega))

theorem keyed_alone [Host] (h : l.alone bases p = .ok c) : c.Keyed := by
  cases hp : p.isMarkup with
  | true =>
    rw [alone_markup hp] at h
    obtain ⟨s, -, rfl⟩ := map_eq_ok.1 h
    exact keyed_ofXml l.resolver p.name s
  | false =>
    rw [alone_plain hp, written, hp] at h
    obtain rfl := Except.ok.inj h
    split
    · have hlabel : Info.Keyed { Info.empty with label := p.name } :=
        Info.keyed_of_others .nil fun _ hk => absurd hk List.not_mem_nil
      exact keyed_empty hlabel []
    · exact keyed_ofItems l.resolver p.name _

theorem Built.keyed [Host] (h : Built l bases p c) : c.Keyed := by
  induction h with
  | single hown _ => exact keyed_alone hown
  | missing hown _ _ =>
    obtain ⟨info, params, tables, autofillers⟩ := keyed_alone hown
    exact ⟨info, params, tables, autofillers⟩
  | composed _ _ _ _ ih => exact ih.compose _

/-! ## Texts in lines -/

/-- What is loaded of a text in lines is the mapping as it is written, with further problems or over
a base mapper. -/
theorem Built.of_plain [Host] (h : Built l bases p c) (hp : p.isMarkup = false) :
    (∃ problems, c = { l.written p with problems := problems }) ∨
      ∃ base : Config, c = base.compose (l.written p) := by
  have hown : ∀ {bases own}, l.alone bases p = .ok own → own = l.written p := fun h =>
    Except.ok.inj (h.symm.trans (alone_plain hp))
  cases h with
  | single h _ => exact .inl ⟨_, hown h⟩
  | missing h _ _ => exact .inl ⟨_, by rw [hown h]⟩
  | composed h _ _ _ => exact .inr ⟨_, by rw [hown h]⟩

theorem keyed_written [Host] (hp : p.isMarkup = false) : (l.written p).Keyed := by
  have halone : l.alone 0 p = .ok (l.written p) := alone_plain hp
  exact keyed_alone halone

/-- Without base mapper a text in lines is loaded as it is written. -/
theorem load_plain [Host] {name fallback : Option Text} {text : Text}
    (hlines : startsWith ['<'] (trim text) = false)
    (hm : mapper? (l.written ⟨name, fallback, text⟩) = none) :
    l.load name fallback text = .ok (l.written ⟨name, fallback, text⟩) :=
  within_eq_ok.2 (.single (alone_plain (p := ⟨name, fallback, text⟩) hlines) hm)

/-- **A loaded mapping** has no setting twice. -/
theorem keyed_load [Host] {name fallback : Option Text} {text : Text}
    (h : l.load name fallback text = .ok c) : c.Keyed :=
  (within_eq_ok (p := ⟨name, fallback, text⟩).1 h).keyed

end Loader
end Crosswalk
