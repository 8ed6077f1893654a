import Crosswalk.Mapping.Config
import Crosswalk.Proofs.Mapping.Written
import Crosswalk.Proofs.Merge

/-!
# Composition

    (a.compose b).compose c = a.compose (b.compose c)                          (compose_assoc)

in every section but the info. There it takes infos that are settled: one with a value under the
second name of the source or the target has one under the first name too. A value under the second
name alone stays beside the value of a base, but takes the first name when its info is composed
with anything before.
-/

namespace Crosswalk

open Pairs

/-! ## Merged settings -/

namespace Info

variable {ps ps' qs qs' : Pairs Text (Option Text)}

/-- The first names of the known settings. -/
def names : List Text := ["label", "from", "to", "querier", "mapper", "example"]

def isOther (name : Text) : Bool := !names.elem name

theorem isOther_iff {name : Text} : isOther name = true ↔ name ∉ names := by
  simp [isOther]

/-- The first and the second names of the settings that have two. -/
def secondNames : List (Text × Text) := [("from", "source_format"), ("to", "target")]

/-- Settings of which none has a value under its second name alone. -/
def SettledPairs (ps : Pairs Text (Option Text)) : Prop :=
  ∀ p ∈ secondNames, p.2 ∈ keys ps → p.1 ∈ keys ps

instance : Decidable (SettledPairs ps) :=
  inferInstanceAs (Decidable (∀ p ∈ secondNames, p.2 ∈ keys ps → p.1 ∈ keys ps))

def Settled (i : Info) : Prop := SettledPairs i.present

instance (i : Info) : Decidable i.Settled := inferInstanceAs (Decidable (SettledPairs _))

/-- Settings by their first names. -/
def byFirst (ps : Pairs Text (Option Text)) : Info :=
  let value := fun (name : Text) => (get? name ps).join
  ⟨value "label", value "from", value "to", value "querier", value "mapper", value "example",
    ps.filter fun p => isOther p.1⟩

theorem chosen_eq {first second : Text} (h : second ∈ keys ps → first ∈ keys ps) :
    get? (if has first ps then first else second) ps = get? first ps ∧
      ∀ k ∈ keys ps, (k = if has first ps then first else second) ↔ k = first := by
  by_cases hfirst : has first ps = true
  · rw [if_pos hfirst]
    exact ⟨rfl, fun _ _ => Iff.rfl⟩
  · have hno : first ∉ keys ps := fun hm => hfirst (get?_isSome.2 hm)
    have hnot : second ∉ keys ps := fun hm => hno (h hm)
    rw [if_neg hfirst]
    refine ⟨(get?_eq_none.2 hnot).trans (get?_eq_none.2 hno).symm, fun k hk => ?_⟩
    exact ⟨fun e => absurd (e ▸ hk) hnot, fun e => absurd (e ▸ hk) hno⟩

theorem ofPairs_eq (h : SettledPairs ps) : ofPairs ps = byFirst ps := by
  obtain ⟨hsource, hsourceName⟩ := chosen_eq (h _ (.head _))
  obtain ⟨htarget, htargetName⟩ := chosen_eq (h _ (.tail _ (.head _)))
  simp only [ofPairs, byFirst, hsource, htarget, mk.injEq, true_and]
  refine List.filter_congr fun p hp => ?_
  have hkey : p.1 ∈ keys ps := List.mem_map_of_mem hp
  simp only [isOther, names, List.elem_eq_mem, List.mem_cons, hsourceName p.1 hkey,
    htargetName p.1 hkey]

/-! ## Settings that read alike -/

/-- Settings with the same values under the known names, and the same ones beside them. -/
structure Alike (ps qs : Pairs Text (Option Text)) : Prop where
  known : ∀ k ∈ names, get? k ps = get? k qs
  others : ps.filter (fun p => isOther p.1) = qs.filter fun p => isOther p.1

theorem Alike.refl (ps : Pairs Text (Option Text)) : Alike ps ps := ⟨fun _ _ => rfl, rfl⟩

theorem Alike.symm (h : Alike ps qs) : Alike qs ps :=
  ⟨fun k hk => (h.known k hk).symm, h.others.symm⟩

theorem Alike.byFirst_eq (h : Alike ps qs) : byFirst ps = byFirst qs := by
  simp only [byFirst, h.others, h.known "label" (by decide), h.known "from" (by decide),
    h.known "to" (by decide), h.known "querier" (by decide), h.known "mapper" (by decide),
    h.known "example" (by decide)]

theorem Alike.merge (h : Alike ps ps') (h' : Alike qs qs') (hqs : (keys qs).Nodup)
    (hqs' : (keys qs').Nodup) : Alike (ps.merge qs) (ps'.merge qs') where
  known := fun k hk => by rw [get?_merge hqs, get?_merge hqs', h.known k hk, h'.known k hk]
  others := by rw [filter_merge, filter_merge, h.others, h'.others]

theorem mem_keys_iff_of_isOther {k : Text} (hk : isOther k = true) :
    k ∈ keys ps ↔ k ∈ keys (ps.filter fun p => isOther p.1) := by
  rw [← get?_isSome, ← get?_isSome, get?_filter hk]

theorem Alike.mem_keys (h : Alike ps qs) (k : Text) : k ∈ keys ps ↔ k ∈ keys qs := by
  by_cases hk : isOther k = true
  · rw [mem_keys_iff_of_isOther hk, h.others, ← mem_keys_iff_of_isOther hk]
  · have hname : k ∈ names := not_not.1 (mt isOther_iff.2 hk)
    rw [← get?_isSome, h.known k hname, get?_isSome]

theorem Alike.settled (h : Alike ps qs) (hps : SettledPairs ps) : SettledPairs qs :=
  fun p hp hsecond => (h.mem_keys p.1).1 (hps p hp ((h.mem_keys p.2).2 hsecond))

theorem settled_merge (hps : SettledPairs ps) (hqs : SettledPairs qs) :
    SettledPairs (ps.merge qs) := fun p hp hsecond =>
  mem_keys_merge.2 ((mem_keys_merge.1 hsecond).imp (hps p hp) (hqs p hp))

/-! ## Settings that are read back -/

/-- No setting comes twice. -/
def Keyed (i : Info) : Prop := (keys i.pairs).Nodup

instance (i : Info) : Decidable i.Keyed := inferInstanceAs (Decidable (keys i.pairs).Nodup)

theorem Keyed.present {i : Info} (hi : i.Keyed) : (keys i.present).Nodup :=
  hi.sublist (List.filter_sublist.map _)

theorem mem_keys_present {i : Info} {k : Text} (hk : k ∈ keys i.present) :
    k ∈ names ∨ k ∈ keys i.others := by
  have hkeys : keys i.pairs = names ++ keys i.others := List.map_append
  exact List.mem_append.1 (hkeys ▸ List.map_subset _ (List.filter_subset_self _) hk)

theorem not_isOther_of_mem_known {i : Info} {p : Text × Option Text} (hp : p ∈ i.known) :
    isOther p.1 = false := by
  have hkeys : i.known.map (·.1) = names := rfl
  have hname : p.1 ∈ names := hkeys ▸ List.mem_map_of_mem hp
  exact Bool.eq_false_iff.2 fun h => isOther_iff.1 h hname

theorem keyed_of_others {i : Info} (hnodup : (keys i.others).Nodup)
    (hothers : ∀ k ∈ keys i.others, isOther k = true) : i.Keyed := by
  have hkeys : keys i.pairs = names ++ keys i.others := List.map_append
  rw [Keyed, hkeys]
  refine List.nodup_append.2 ⟨by decide, hnodup, ?_⟩
  rintro k hk l hl rfl
  exact isOther_iff.1 (hothers k hl) hk

theorem keyed_byFirst (hps : (keys ps).Nodup) : (byFirst ps).Keyed := by
  refine keyed_of_others (hps.sublist (List.filter_sublist.map _)) fun k hk => ?_
  obtain ⟨p, hp, rfl⟩ := List.mem_map.1 hk
  exact (List.mem_filter.1 hp).2

theorem ne_of_ne_chosen {first second k : Text} (hk : k ∈ keys ps)
    (hne : k ≠ if has first ps then first else second) :
    k ≠ first ∧ (first ∉ keys ps → k ≠ second) := by
  by_cases hfirst : has first ps = true
  · rw [if_pos hfirst] at hne
    exact ⟨hne, fun hno => absurd (get?_isSome.1 hfirst) hno⟩
  · rw [if_neg hfirst] at hne
    exact ⟨fun e => hfirst (get?_isSome.2 (e ▸ hk)), fun _ => hne⟩

/-- Beside the known settings stands none of their names, nor a second name that was read. -/
theorem mem_others_ofPairs {k : Text} (hk : k ∈ keys (ofPairs ps).others) :
    isOther k = true ∧ ∀ p ∈ secondNames, p.1 ∉ keys ps → k ≠ p.2 := by
  obtain ⟨p, hp, rfl⟩ := List.mem_map.1 hk
  obtain ⟨hmem, hname⟩ := List.mem_filter.1 hp
  have hkey : p.1 ∈ keys ps := List.mem_map_of_mem hmem
  simp only [List.elem_eq_mem, List.mem_cons, List.not_mem_nil, or_false, Bool.not_eq_true',
    decide_eq_false_iff_not, not_or] at hname
  obtain ⟨hlabel, hsource, htarget, hquerier, hmapper, hexample⟩ := hname
  obtain ⟨hfrom, hsecondSource⟩ := ne_of_ne_chosen hkey hsource
  obtain ⟨hto, hsecondTarget⟩ := ne_of_ne_chosen hkey htarget
  refine ⟨?_, fun q hq => ?_⟩
  · rw [isOther_iff]
    simp only [names, List.mem_cons, List.not_mem_nil, or_false, not_or]
    exact ⟨hlabel, hfrom, hto, hquerier, hmapper, hexample⟩
  · rcases List.mem_pair.1 hq with rfl | rfl
    · exact hsecondSource
    · exact hsecondTarget

theorem keys_others_ofPairs : keys (ofPairs ps).others ⊆ keys ps :=
  List.map_subset _ (List.filter_subset_self ps)

theorem keyed_ofPairs (hps : (keys ps).Nodup) : (ofPairs ps).Keyed :=
  keyed_of_others (hps.sublist (List.filter_sublist.map _)) fun _ hk => (mem_others_ofPairs hk).1

/-- All settings have a value. -/
def Full (ps : Pairs Text (Option Text)) : Prop := ∀ p ∈ ps, p.2.isSome = true

theorem full_present (i : Info) : Full i.present := fun _ hp => (List.mem_filter.1 hp).2

theorem full_merge (hps : Full ps) (hqs : Full qs) : Full (ps.merge qs) :=
  fun _ hp => (mem_merge hp).elim (hps _) (hqs _)

theorem get?_full (hps : Full ps) (k : Text) :
    (some (get? k ps).join).filter Option.isSome = get? k ps := by
  cases h : get? k ps with
  | none => rfl
  | some v =>
    obtain ⟨w, rfl⟩ := Option.isSome_iff_exists.1 (hps _ (mem_of_get? h))
    rfl

/-- What is read by the first names is written back under them. -/
theorem alike_present_byFirst (hps : Full ps) (hkeys : (keys ps).Nodup) :
    Alike (byFirst ps).present ps where
  known := fun k hk => by
    rw [present, get?_filter_value (keyed_byFirst hkeys), ← get?_full hps k]
    congr 1
    simp only [names, List.mem_cons, List.not_mem_nil, or_false] at hk
    rcases hk with rfl | rfl | rfl | rfl | rfl | rfl <;> rfl
  others := by
    rw [present, pairs, List.filter_append, List.filter_append]
    have hknown : ((byFirst ps).known.filter fun p => p.2.isSome).filter
        (fun p => isOther p.1) = [] :=
      List.filter_eq_nil_iff.2 fun p hp => by
        simp [not_isOther_of_mem_known (List.mem_filter.1 hp).1]
    have hfull : (byFirst ps).others.filter (fun p => p.2.isSome) = (byFirst ps).others :=
      List.filter_eq_self.2 fun p hp => hps p (List.mem_filter.1 hp).1
    rw [hknown, hfull, List.nil_append]
    exact List.filter_eq_self.2 fun p hp => (List.mem_filter.1 hp).2

/-! ## Infos -/

/-- The settings of an info over those of another one. -/
def merged (base child : Info) : Info := .ofPairs (base.present.merge child.present)

variable {a b c : Info}

theorem merged_eq (h : SettledPairs (a.present.merge b.present)) :
    a.merged b = byFirst (a.present.merge b.present) :=
  ofPairs_eq h

theorem alike_merged (h : SettledPairs (a.present.merge b.present)) (ha : a.Keyed) :
    Alike (a.merged b).present (a.present.merge b.present) := by
  rw [merged_eq h]
  exact alike_present_byFirst (full_merge (full_present a) (full_present b))
    (nodup_keys_merge ha.present)

theorem merged_assoc (hsa : a.Settled) (hsb : b.Settled) (hsc : c.Settled) (ha : a.Keyed)
    (hb : b.Keyed) (hc : c.Keyed) : (a.merged b).merged c = a.merged (b.merged c) := by
  have hab := alike_merged (settled_merge hsa hsb) ha
  have hbc := alike_merged (settled_merge hsb hsc) hb
  have hsettledAB : (a.merged b).Settled := hab.symm.settled (settled_merge hsa hsb)
  have hsettledBC : (b.merged c).Settled := hbc.symm.settled (settled_merge hsb hsc)
  have hkeyedBC : (b.merged c).Keyed := keyed_ofPairs (nodup_keys_merge hb.present)
  have hleft := hab.merge (.refl c.present) hc.present hc.present
  have hright := (Alike.refl a.present).merge hbc hkeyedBC.present (nodup_keys_merge hb.present)
  calc (a.merged b).merged c
    _ = byFirst ((a.merged b).present.merge c.present) := merged_eq (settled_merge hsettledAB hsc)
    _ = byFirst ((a.present.merge b.present).merge c.present) := hleft.byFirst_eq
    _ = byFirst (a.present.merge (b.present.merge c.present)) := by rw [merge_assoc hb.present]
    _ = byFirst (a.present.merge (b.merged c).present) := hright.byFirst_eq.symm
    _ = a.merged (b.merged c) := (merged_eq (settled_merge hsa hsettledBC)).symm

/-- A value under its second name alone stands beside the value that a base has under the first
name, but overrides it once its own info was composed with another one. -/
theorem merged_not_assoc (hunsettled : ¬ b.Settled) :
    ∃ d : Info, d.Keyed ∧ d.Settled ∧ (d.merged b).merged .empty ≠ d.merged (b.merged .empty) := by
  simp only [Settled, SettledPairs, not_forall] at hunsettled
  obtain ⟨p, hp, hsecond, hfirst⟩ := hunsettled
  let d : Info := { Info.empty with source := some [], target := some [] }
  have hd : d.Keyed := by decide
  have hnames : ∀ q ∈ secondNames, q.1 ∈ keys d.present ∧ q.2 ∉ keys d.present := by decide
  have hmerge : ∀ qs, SettledPairs (d.present.merge qs) := fun qs q hq _ =>
    mem_keys_merge.2 (.inl (hnames q hq).1)
  have hdb := alike_merged (hmerge b.present) hd
  have hdbe : SettledPairs ((d.merged b).present.merge Info.empty.present) :=
    hdb.symm.settled (hmerge _)
  have hleft : (d.merged b).merged .empty = byFirst (d.present.merge b.present) :=
    (merged_eq hdbe).trans hdb.byFirst_eq
  have hother : isOther p.2 = true :=
    (by decide : ∀ q ∈ secondNames, isOther q.2 = true) p hp
  refine ⟨d, hd, by decide, fun h => ?_⟩
  have hkept : p.2 ∈ keys (d.merged (b.merged .empty)).others := by
    rw [← h, hleft]
    exact (mem_keys_iff_of_isOther hother).1 (mem_keys_merge.2 (.inr hsecond))
  rcases mem_keys_merge.1 (keys_others_ofPairs hkept) with hk | hk
  · exact (hnames p hp).2 hk
  · rcases mem_keys_present hk with hk | hk
    · exact isOther_iff.1 hother hk
    · exact (mem_others_ofPairs hk).2 p hp hfirst rfl

end Info

/-! ## Entries -/

/-- The entries of a list, each once. -/
structure Joined (joined es : List Entry) : Prop where
  firstSeen : FirstSeen (joined.map Entry.parts) (es.map Entry.parts)
  sublist : joined.Sublist es

theorem distinctOn_written (es : List Entry) :
    distinctOn Entry.written es = distinctOn Entry.parts es :=
  distinctOn_congr (fun _ _ => Entry.written_eq_iff) es

theorem joined_distinctOn (es : List Entry) : Joined (distinctOn Entry.written es) es where
  firstSeen := by
    rw [distinctOn_written, map_distinctOn]
    exact firstSeen_distinct _
  sublist := distinctOn_sublist _ es

/-! ## Configs -/

namespace Config

/-- No setting comes twice in its section. -/
structure Keyed (c : Config) : Prop where
  info : c.info.Keyed
  params : (keys c.params).Nodup
  tables : (keys c.tables).Nodup
  autofillers : (keys c.autofillers).Nodup

variable {a b c : Config}

theorem Keyed.compose (ha : a.Keyed) (b : Config) : (a.compose b).Keyed where
  info := Info.keyed_ofPairs (nodup_keys_merge ha.info.present)
  params := nodup_keys_merge ha.params
  tables := nodup_keys_merge ha.tables
  autofillers := nodup_keys_merge ha.autofillers

theorem compose_sections (a : Config) (hb : b.Keyed) (c : Config) :
    (a.compose b).compose c =
      { a.compose (b.compose c) with info := ((a.compose b).compose c).info } := by
  simp only [compose, merge_assoc hb.params, merge_assoc hb.tables,
    merge_assoc hb.autofillers, distinctOn_append_left, distinctOn_append_right,
    List.append_assoc]

/-- **Composition** is associative in all sections but the info, and in the info when it is
settled; it keeps every entry once. -/
theorem compose_assoc (ha : a.Keyed) (hb : b.Keyed) (hc : c.Keyed) :
    (a.compose b).compose c =
        { a.compose (b.compose c) with info := ((a.compose b).compose c).info } ∧
      (a.info.Settled → b.info.Settled → c.info.Settled →
        (a.compose b).compose c = a.compose (b.compose c)) ∧
      (¬ b.info.Settled → ∃ d : Config, d.Keyed ∧ d.info.Settled ∧
        (d.compose b).compose .empty ≠ d.compose (b.compose .empty)) ∧
      Joined (a.compose b).default (a.default ++ b.default) ∧
      Joined (a.compose b).mapping (a.mapping ++ b.mapping) := by
  have hsections := compose_sections a hb c
  refine ⟨hsections, fun hsa hsb hsc => ?_, fun hunsettled => ?_, joined_distinctOn _,
    joined_distinctOn _⟩
  · have hinfo : ((a.compose b).compose c).info = (a.compose (b.compose c)).info :=
      Info.merged_assoc hsa hsb hsc ha.info hb.info hc.info
    rw [hsections, hinfo]
  · obtain ⟨i, hkeyed, hsettled, hne⟩ := Info.merged_not_assoc hunsettled
    exact ⟨{ empty with info := i }, ⟨hkeyed, .nil, .nil, .nil⟩, hsettled,
      fun h => hne (congrArg Config.info h)⟩

/-- A mapping that tells its source and fills one field by default. -/
def sourced : Config :=
  { empty with
    info := { Info.empty with source := some "x", others := [("note", some "1")] }
    params := [("a", .bool true)]
    default := [.faulty (.missingBase "m"), .faulty .invalidXml] }

/-- A mapping that shares an entry and a param with `sourced`. -/
def shared : Config :=
  { empty with
    info := { Info.empty with label := some "L", others := [("note", some "2")] }
    params := [("b", .null), ("a", .bool false)]
    default := [.faulty .invalidXml, .faulty .unnamedSection] }

theorem compose_assoc_shared :
    sourced.Keyed ∧ shared.Keyed ∧ sourced.info.Settled ∧ shared.info.Settled ∧
      (sourced.compose shared).compose sourced = sourced.compose (shared.compose sourced) ∧
      Joined (sourced.compose shared).default (sourced.default ++ shared.default) := by
  have hsourced : sourced.Keyed := ⟨by decide, by decide, by decide, by decide⟩
  have hshared : shared.Keyed := ⟨by decide, by decide, by decide, by decide⟩
  have hassoc := compose_assoc hsourced hshared hsourced
  have hsettled : sourced.info.Settled := by decide
  have hsettled' : shared.info.Settled := by decide
  exact ⟨hsourced, hshared, hsettled, hsettled', hassoc.2.1 hsettled hsettled' hsettled,
    hassoc.2.2.2.1⟩

/-- A mapping with a value under the second name of the source alone. -/
def renamed : Config :=
  { empty with info := { Info.empty with others := [("source_format", some "y")] } }

theorem compose_second_name :
    (sourced.compose renamed).compose empty ≠ sourced.compose (renamed.compose empty) ∧
      ((sourced.compose renamed).compose empty).info.source = some "x" ∧
      (sourced.compose (renamed.compose empty)).info.source = some "y" := by decide

end Config
end Crosswalk
