import Crosswalk.Host.Bundled
import Crosswalk.Proofs.Mapping.Quotation
import Crosswalk.Proofs.Text.Outside

/-!
# Lines of settings

A line `key = value` of settings is cut like the line of an entry, at its last `=` outside quotes
and before a `~`. So it is read as it is meant if and only if its value has no such `=`:

    readKeyValue w.line = .ok (w.key, some w.value) ↔ w.Kept                (readKeyValue_line_iff)

Otherwise what stands before the last `=` is the key. A setting that is read stands in the mapping,
over the ones of a base mapper (`load_keyValue`).
-/

namespace Crosswalk

open Text

/-! ## One line -/

/-- A key and its value, where the key has no mark that a line is cut at. -/
structure KeyValue where
  key : Text
  value : Text
  key_trimmed : trim key = key
  key_ne : key ≠ []
  key_free : ∀ c ∈ key, isQuoteMark c = false ∧ c ≠ '=' ∧ c ≠ '~'
  key_start : startsWith [';'] key = false ∧ startsWith ['['] key = false
  value_trimmed : trim value = value
  value_ne : value ≠ []

namespace KeyValue

variable (w : KeyValue)

/-- `key = value` -/
def line : Text := w.key ++ [' ', '=', ' '] ++ w.value

/-- The value has no `=` outside quotes before its first `~` outside quotes. -/
def Kept : Prop := '=' ∉ Quote.outside none (splitPattern w.value).1

instance : Decidable w.Kept :=
  inferInstanceAs (Decidable ('=' ∉ Quote.outside none (splitPattern w.value).1))

theorem isSource_key : IsSource w.key := by
  have hfree : Free '~' w.key := fun c hc => ⟨(w.key_free c hc).1, (w.key_free c hc).2.2⟩
  exact ⟨w.key_ne, w.key_trimmed, hfree.sealed⟩

theorem startsWith_line {c : Char} (h : startsWith [c] w.key = false) (s : Text) :
    startsWith [c] (w.key ++ s) = false := by
  obtain ⟨d, k, hk⟩ := List.exists_cons_of_ne_nil w.key_ne
  rw [hk] at h ⊢
  simpa [startsWith, after?] using h

/-- A value that is kept is read under its key. -/
theorem readKeyValue_kept (h : w.Kept) : readKeyValue w.line = .ok (w.key, some w.value) := by
  have hsource : w.key ≠ noSource := by
    intro hnone
    exact (w.key_free '~' (hnone ▸ List.mem_cons_self)).2.2 rfl
  unfold readKeyValue
  rw [line, splitLine_sourced w.isSource_key w.value_trimmed w.value_ne h]
  simp [w.key_ne, hsource, Template.nonEmpty, w.value_ne]

theorem longer_ne (more : Text) : w.key ++ ' ' :: '=' :: more ≠ w.key := by simp

/-- Otherwise a part of the value is read as a part of the key. -/
theorem readKeyValue_lost (h : ¬w.Kept) : ∃ more value,
    readKeyValue w.line = .ok (w.key ++ ' ' :: '=' :: more, value) := by
  obtain ⟨more, b, hsplit⟩ := splitLine_longer w.isSource_key w.value_trimmed w.value_ne h
  have hnone : w.key ++ ' ' :: '=' :: more ≠ noSource := by
    intro hnone
    have hlength := congrArg List.length hnone
    simp [noSource] at hlength
    omega
  refine ⟨more, Template.nonEmpty b, ?_⟩
  unfold readKeyValue
  rw [line, hsplit]
  simp [hnone]

/-- **A line of settings** is read as it is meant if and only if its value is kept. -/
theorem readKeyValue_line_iff : readKeyValue w.line = .ok (w.key, some w.value) ↔ w.Kept := by
  refine ⟨fun h => ?_, w.readKeyValue_kept⟩
  by_contra hlost
  obtain ⟨more, value, hread⟩ := w.readKeyValue_lost hlost
  have hkey : w.key ++ ' ' :: '=' :: more = w.key :=
    congrArg Prod.fst (Except.ok.inj (hread.symm.trans h))
  exact w.longer_ne more hkey

end KeyValue

/-! ## Lines of a section -/

/-- The section that is open after some lines. -/
def openAfter (current : Option Section) : List Text → Option Section
  | [] => current
  | line :: lines =>
    if startsWith [';'] line then openAfter current lines
    else if startsWith ['['] line then openAfter (openSection line).1 lines
    else openAfter current lines

/-- The items of the lines below depend on the section that is open. -/
theorem itemsFrom_append (current : Option Section) (above below : List Text) :
    itemsFrom current (above ++ below) =
      itemsFrom current above ++ itemsFrom (openAfter current above) below := by
  -- The open section varies along the lines above.
  induction above generalizing current with
  | nil => rfl
  | cons line above ih =>
    simp only [List.cons_append, itemsFrom, openAfter]
    split
    · exact ih current
    · split
      · rw [ih, List.append_assoc]
      · cases current with
        | none => exact ih none
        | some s => exact congrArg (.line s line :: ·) (ih (some s))

/-- A line of settings is a line of the open section. -/
theorem itemsFrom_line (w : KeyValue) (s : Section) (below : List Text) :
    itemsFrom (some s) (w.line :: below) = .line s w.line :: itemsFrom (some s) below := by
  have hcomment : startsWith [';'] w.line = false := by
    rw [KeyValue.line, List.append_assoc]
    exact w.startsWith_line w.key_start.1 _
  have hheading : startsWith ['['] w.line = false := by
    rw [KeyValue.line, List.append_assoc]
    exact w.startsWith_line w.key_start.2 _
  simp only [itemsFrom, hcomment, hheading, Bool.false_eq_true, if_false]

section
variable {line key : Text} {value : Option Text} {above below : List Text}

theorem keyValues_eq (above : List Text) (hread : readKeyValue line = .ok (key, value))
    (below : List Text) :
    (above ++ line :: below).filterMap (fun line => (readKeyValue line).toOption) =
      above.filterMap (fun line => (readKeyValue line).toOption) ++
        (key, value) :: below.filterMap fun line => (readKeyValue line).toOption := by
  rw [List.filterMap_append, List.filterMap_cons, hread]
  rfl

/-- The last line of a key gives its value. -/
theorem get?_keyValues_last (above : List Text) (hread : readKeyValue line = .ok (key, value))
    (hlast : ∀ line ∈ below, ∀ p, readKeyValue line = .ok p → p.1 ≠ key) :
    Pairs.get? key (keyValues (above ++ line :: below)) = some value := by
  have hnone : Pairs.get? key
      (below.filterMap fun line => (readKeyValue line).toOption).reverse = none := by
    rw [Pairs.get?_eq_none]
    intro hkey
    obtain ⟨p, hp, hfirst⟩ := List.mem_map.1 hkey
    obtain ⟨line, hline, hsome⟩ := List.mem_filterMap.1 (List.mem_reverse.1 hp)
    cases h : readKeyValue line with
    | error e => rw [h] at hsome; cases hsome
    | ok q =>
      rw [h] at hsome
      obtain rfl := Option.some.inj hsome
      exact hlast line hline q h hfirst
  rw [keyValues, keyValues_eq above hread, Pairs.get?_ofList, List.reverse_append,
    List.reverse_cons, Pairs.get?_append, Pairs.get?_append, hnone, Pairs.get?, if_pos rfl]
  rfl

/-- A line says nothing about other keys. -/
theorem get?_keyValues_other (hread : readKeyValue line = .ok (key, value)) {other : Text}
    (hne : other ≠ key) : Pairs.get? other (keyValues (above ++ line :: below)) =
      Pairs.get? other (keyValues (above ++ below)) := by
  have hone : Pairs.get? other [(key, value)] = none := if_neg (Ne.symm hne)
  rw [keyValues, keyValues_eq above hread, keyValues, List.filterMap_append, Pairs.get?_ofList,
    Pairs.get?_ofList, List.reverse_append, List.reverse_append, List.reverse_cons,
    Pairs.get?_append, Pairs.get?_append, Pairs.get?_append, hone, Option.or_none]

theorem keyValueProblems_read (hread : readKeyValue line = .ok (key, value)) :
    keyValueProblems (above ++ line :: below) = keyValueProblems (above ++ below) := by
  unfold keyValueProblems
  rw [List.filterMap_append, List.filterMap_append, List.filterMap_cons, hread]

end

section
variable {s : Section} {line key : Text} {value : Option Text} {before after : List Item}

theorem linesOf_line (s t : Section) (line : Text) (before after : List Item) :
    linesOf t (before ++ .line s line :: after) =
      linesOf t before ++ if s = t then line :: linesOf t after else linesOf t after := by
  unfold linesOf
  rw [List.filterMap_append, List.filterMap_cons]
  by_cases h : s = t
  · simp only [if_pos h]
  · simp only [if_neg h]

theorem linesOf_append (t : Section) (before after : List Item) :
    linesOf t (before ++ after) = linesOf t before ++ linesOf t after := List.filterMap_append

theorem linesOf_self (s : Section) (line : Text) (before after : List Item) :
    linesOf s (before ++ .line s line :: after) = linesOf s before ++ line :: linesOf s after := by
  rw [linesOf_line, if_pos rfl]

/-- A line says nothing in other sections. -/
theorem linesOf_other {t : Section} (hne : s ≠ t) :
    linesOf t (before ++ .line s line :: after) = linesOf t (before ++ after) := by
  rw [linesOf_line, if_neg hne, linesOf_append]

theorem keyValueProblems_line (hread : readKeyValue line = .ok (key, value)) (t : Section) :
    keyValueProblems (linesOf t (before ++ .line s line :: after)) =
      keyValueProblems (linesOf t (before ++ after)) := by
  by_cases h : s = t
  · subst h
    rw [linesOf_self, keyValueProblems_read hread, linesOf_append]
  · rw [linesOf_other h]

theorem get?_keyValues_line (hread : readKeyValue line = .ok (key, value)) {t : Section}
    {other : Text} (hne : s = t → other ≠ key) (before after : List Item) :
    Pairs.get? other (keyValues (linesOf t (before ++ .line s line :: after))) =
      Pairs.get? other (keyValues (linesOf t (before ++ after))) := by
  by_cases h : s = t
  · subst h
    rw [linesOf_self, get?_keyValues_other hread (hne rfl), linesOf_append]
  · rw [linesOf_other h]

/-- The querier that the lines of `info` name. -/
def querierIn (items : List Item) : Querier × List Problem :=
  querierOf ((Pairs.get? ("querier" : Text) (keyValues (linesOf .info items))).map
    (Option.map infoValue)).join

theorem Config.problems_ofItems (r : Resolver) (name : Option Text) (items : List Item) :
    (Config.ofItems r name items).problems =
      problemsOf items ++ keyValueProblems (linesOf .info items) ++ (querierIn items).2 ++
        keyValueProblems (linesOf .params items) ++
        Entry.problems (readLines r (querierIn items).1 true (linesOf .default items)) ++
        Entry.problems (readLines r (querierIn items).1 false (linesOf .mapping items)) ++
        ((blocksOf items).map fun p =>
          (p.1, blockEntries r (querierIn items).1 items p.1 p.2)).flatMap fun p =>
            Entry.problems p.2.mapping := by
  unfold querierIn
  rw [← Pairs.get?_map]
  rfl

/-- **A setting that is read** adds no problem. -/
theorem Config.problems_setting (r : Resolver) (name : Option Text)
    (hread : readKeyValue line = .ok (key, value))
    (hs : s = .params ∨ s = .info ∧ key ≠ "querier") (before after : List Item) :
    (Config.ofItems r name (before ++ .line s line :: after)).problems =
      (Config.ofItems r name (before ++ after)).problems := by
  have hblocks : blocksOf (before ++ .line s line :: after) = blocksOf (before ++ after) := by
    rw [blocksOf_eq, blocksOf_eq, List.filterMap_append, List.filterMap_cons_none rfl,
      List.filterMap_append]
  have hproblems : problemsOf (before ++ .line s line :: after) = problemsOf (before ++ after) := by
    unfold problemsOf
    rw [List.filterMap_append, List.filterMap_cons_none rfl, List.filterMap_append]
  have hentries : ∀ t, t ≠ .info → t ≠ .params →
      linesOf t (before ++ .line s line :: after) = linesOf t (before ++ after) := by
    intro t hinfo hparams
    refine linesOf_other ?_
    rintro rfl
    exact hs.elim hparams fun h => hinfo h.1
  have hdefault := hentries .default (by decide) (by decide)
  have hmapping := hentries .mapping (by decide) (by decide)
  have hblock : ∀ b, linesOf (.block b) (before ++ .line s line :: after) =
      linesOf (.block b) (before ++ after) := fun b => hentries (.block b) (by simp) (by simp)
  have hname : s = .info → "querier".toList ≠ key := by
    rintro rfl
    exact Ne.symm (hs.resolve_left nofun).2
  have hquerier : querierIn (before ++ .line s line :: after) = querierIn (before ++ after) := by
    rw [querierIn, get?_keyValues_line hread hname, querierIn]
  simp only [problems_ofItems, blockEntries, hquerier, hproblems, hblocks,
    keyValueProblems_line hread, hdefault, hmapping, hblock]

/-- The base mapper is the one of the other lines. -/
theorem mapper?_setting (r : Resolver) (name : Option Text)
    (hread : readKeyValue line = .ok (key, value)) (hs : s = .info → key ≠ "mapper")
    (before after : List Item) :
    Loader.mapper? (.ofItems r name (before ++ .line s line :: after)) =
      Loader.mapper? (.ofItems r name (before ++ after)) := by
  have hmapper := get?_keyValues_line hread (fun h => Ne.symm (hs h)) before after
  unfold Loader.mapper?
  simp only [Config.ofItems, Info.mapper_named, Pairs.get?_map, hmapper]

end

/-! ## Settings of an info -/

namespace Info

variable {key value : Text} {ps : Pairs Text (Option Text)}

/-- The setting has the value under its name, or under the first name of a second one. -/
def Tells (i : Info) (key value : Text) : Prop :=
  ∃ name, (name = key ∨ (name, key) ∈ secondNames) ∧ Pairs.get? name i.pairs = some (some value)

/-- A name that is not known stands beside the known ones. -/
theorem get?_pairs {i : Info} (hkey : key ∉ names) :
    Pairs.get? key i.pairs = Pairs.get? key i.others := by
  have hknown : Pairs.get? key i.known = none := Pairs.get?_eq_none.2 hkey
  rw [pairs, Pairs.get?_append, hknown, Option.none_or]

/-- The first names of the known settings, each with the name that its value is taken from. -/
def takenFrom (ps : Pairs Text (Option Text)) : List (Text × Text) := [
  ("label", "label"),
  ("from", if Pairs.has ("from" : Text) ps then ("from" : Text) else "source_format"),
  ("to", if Pairs.has ("to" : Text) ps then ("to" : Text) else "target"),
  ("querier", "querier"), ("mapper", "mapper"), ("example", "example")]

theorem takenFrom_names {p : Text × Text} (hp : p ∈ takenFrom ps) :
    p.1 = p.2 ∨ p ∈ secondNames := by
  simp only [takenFrom, List.mem_cons, List.not_mem_nil, or_false] at hp
  rcases hp with rfl | rfl | rfl | rfl | rfl | rfl
  · exact .inl rfl
  · split
    · exact .inl rfl
    · exact .inr (by decide)
  · split
    · exact .inl rfl
    · exact .inr (by decide)
  · exact .inl rfl
  · exact .inl rfl
  · exact .inl rfl

theorem get?_ofPairs {p : Text × Text} (hp : p ∈ takenFrom ps) :
    Pairs.get? p.1 (ofPairs ps).pairs = some (Pairs.get? p.2 ps).join := by
  simp only [takenFrom, List.mem_cons, List.not_mem_nil, or_false] at hp
  rcases hp with rfl | rfl | rfl | rfl | rfl | rfl <;> rfl

theorem others_ofPairs (ps : Pairs Text (Option Text)) :
    (ofPairs ps).others = ps.filter fun p => !((takenFrom ps).map Prod.snd).elem p.1 := by
  rfl

/-- Settings say their values, by whatever name. -/
theorem tells_ofPairs (h : Pairs.get? key ps = some (some value)) :
    (ofPairs ps).Tells key value := by
  by_cases htaken : key ∈ (takenFrom ps).map Prod.snd
  · obtain ⟨p, hp, rfl⟩ := List.mem_map.1 htaken
    refine ⟨p.1, takenFrom_names hp, ?_⟩
    rw [get?_ofPairs hp, h]
    rfl
  · have hothers : Pairs.get? key (ofPairs ps).others = some (some value) := by
      rw [others_ofPairs, ← h]
      refine Pairs.get?_filter (p := fun k => !((takenFrom ps).map Prod.snd).elem k) ?_
      rw [List.elem_eq_mem, decide_eq_false htaken]
      rfl
    have hkey : key ∈ Pairs.keys (ofPairs ps).others := by
      rw [← Pairs.get?_isSome, hothers]
      rfl
    refine ⟨key, .inl rfl, ?_⟩
    rw [get?_pairs (isOther_iff.1 (mem_others_ofPairs hkey).1), hothers]

/-- Settings over other ones are said by both together. -/
theorem Tells.merged {base child : Info} (hchild : child.Keyed) (h : child.Tells key value) :
    (base.merged child).Tells key value := by
  obtain ⟨name, hname, hvalue⟩ := h
  have hpresent : Pairs.get? name child.present = some (some value) := by
    rw [present, Pairs.get?_filter_value hchild, hvalue]
    rfl
  have hmerge : Pairs.get? name (base.present.merge child.present) = some (some value) := by
    rw [Pairs.get?_merge hchild.present, hpresent]
    rfl
  obtain ⟨first, hfirst, hread⟩ := tells_ofPairs hmerge
  refine ⟨first, ?_, hread⟩
  -- A second name is the first name of no setting.
  have hchain : ∀ p ∈ secondNames, ∀ q ∈ secondNames, p.2 ≠ q.1 := by decide
  rcases hfirst with rfl | hfirst
  · exact hname
  · rcases hname with rfl | hsecond
    · exact .inr hfirst
    · exact absurd rfl (hchain _ hfirst _ hsecond)

theorem tells_named (name : Option Text) (h : Pairs.get? key ps = some (some value))
    (hvalue : value ≠ []) : (named name ps).Tells key value := by
  by_cases hkey : key = "label"
  · subst hkey
    obtain ⟨c, v, rfl⟩ := List.exists_cons_of_ne_nil hvalue
    have hnamed : named name ps = .ofPairs ps := by
      unfold named
      rw [h]
      rfl
    rw [hnamed]
    exact tells_ofPairs h
  · obtain ⟨qs, hnamed, hqs⟩ := exists_named name ps
    rw [hnamed]
    exact tells_ofPairs ((hqs key hkey).trans h)

end Info

/-! ## Loading -/

section
variable {line key : Text} {value : Option Text} {s : Section} {after : List Item}

theorem Config.get?_params (r : Resolver) (name : Option Text)
    (hread : readKeyValue line = .ok (key, value)) (before : List Item)
    (hlast : ∀ line ∈ linesOf .params after, ∀ p, readKeyValue line = .ok p → p.1 ≠ key) :
    Pairs.get? key (Config.ofItems r name (before ++ .line .params line :: after)).params =
      some (paramValue value) := by
  have hvalue := get?_keyValues_last (linesOf .params before) hread hlast
  rw [← linesOf_self] at hvalue
  simp only [Config.ofItems, Pairs.get?_map, hvalue]
  rfl

theorem Config.tells_info (r : Resolver) (name : Option Text) {value : Text}
    (hread : readKeyValue line = .ok (key, some value)) (hquoted : isQuoted value = false)
    (hne : value ≠ []) (before : List Item)
    (hlast : ∀ line ∈ linesOf .info after, ∀ p, readKeyValue line = .ok p → p.1 ≠ key) :
    (Config.ofItems r name (before ++ .line .info line :: after)).info.Tells key value := by
  have hvalue := get?_keyValues_last (linesOf .info before) hread hlast
  rw [← linesOf_self] at hvalue
  refine Info.tells_named name ?_ hne
  rw [Pairs.get?_map, hvalue]
  simp only [Option.map_some, infoValue, hquoted, Bool.false_eq_true, if_false]

end

namespace Loader

variable {l : Loader} {bases : Nat}

/-- Texts in lines with the same problems and the same base mapper are loaded with the same
problems, or not at all. -/
theorem within_problems [Host] {p q : Page} (hp : p.isMarkup = false) (hq : q.isMarkup = false)
    (hname : p.name = q.name) (hm : mapper? (l.written p) = mapper? (l.written q))
    (hproblems : (l.written p).problems = (l.written q).problems) :
    (l.within bases p).map Config.problems = (l.within bases q).map Config.problems := by
  cases bases with
  | zero =>
    rw [within_zero, within_zero, alone_plain hp, alone_plain hq]
    simp only [Except.bind, hm, hname]
    cases mapper? (l.written q) with
    | none => exact congrArg Except.ok hproblems
    | some m => rfl
  | succ bases =>
    rw [within_succ, within_succ, alone_plain hp, alone_plain hq]
    simp only [Except.bind, hm]
    cases mapper? (l.written q) with
    | none => exact congrArg Except.ok hproblems
    | some m =>
      dsimp only
      cases l.base? m with
      | none => exact congrArg (fun ps => Except.ok (ps ++ [.missingBase m])) hproblems
      | some content =>
        dsimp only
        cases l.within bases (l.basePage m content) with
        | error e => rfl
        | ok base => exact congrArg (fun ps => Except.ok (base.problems ++ ps)) hproblems

/-- A parameter stays in what is loaded. -/
theorem Built.get?_params [Host] {p : Page} {c : Config} (h : Built l bases p c)
    (hp : p.isMarkup = false) {key : Text} {value : Param}
    (hvalue : Pairs.get? key (l.written p).params = some value) :
    Pairs.get? key c.params = some value := by
  rcases h.of_plain hp with ⟨_, rfl⟩ | ⟨base, rfl⟩
  · exact hvalue
  · show Pairs.get? key (Pairs.merge _ (l.written p).params) = _
    rw [Pairs.get?_merge (keyed_written hp).params, hvalue]
    rfl

/-- So does a setting of the info. -/
theorem Built.tells [Host] {p : Page} {c : Config} (h : Built l bases p c) (hp : p.isMarkup = false)
    {key value : Text} (htells : (l.written p).info.Tells key value) : c.info.Tells key value := by
  rcases h.of_plain hp with ⟨_, rfl⟩ | ⟨base, rfl⟩
  · exact htells
  · exact htells.merged (keyed_written hp).info

/-- The lines below a heading are read with its section open. -/
theorem written_append [Host] {p : Page} (hp : p.isMarkup = false) {above below : List Text}
    {s : Section} (hcontent : contentLines p.text = above ++ below)
    (hopen : openAfter none above = some s) :
    l.written p =
      .ofItems l.resolver p.name (itemsFrom none above ++ itemsFrom (some s) below) := by
  have hne : contentLines p.text ≠ [] := by
    intro hnil
    rw [hcontent] at hnil
    rw [(List.append_eq_nil_iff.1 hnil).1] at hopen
    cases hopen
  rw [written_lines hp hne, itemsOf, hcontent, itemsFrom_append, hopen]

/-- **A line of settings** in an open section gives its value to its key if and only if the value is
kept. Then the mapping has the problems that it has without the line. Else the line says nothing
about the key. -/
theorem load_keyValue [Host] (l : Loader) (w : KeyValue) (name fallback : Option Text) {text : Text}
    {above below : List Text} {s : Section} (hlines : startsWith ['<'] (trim text) = false)
    (hcontent : contentLines text = above ++ w.line :: below)
    (hopen : openAfter none above = some s)
    (hsetting : s = .params ∨ s = .info ∧ w.key ≠ "querier" ∧ w.key ≠ "mapper" ∧
      isQuoted w.value = false)
    (hlast : ∀ line ∈ linesOf s (itemsFrom (some s) below), ∀ p,
      readKeyValue line = .ok p → p.1 ≠ w.key) :
    (mapper? (l.written ⟨name, fallback, text⟩) = none → ∃ c, l.load name fallback text = .ok c) ∧
    (readKeyValue w.line = .ok (w.key, some w.value) ↔ w.Kept) ∧
    (w.Kept →
      (∀ rest, startsWith ['<'] (trim rest) = false → contentLines rest = above ++ below →
        (l.load name fallback text).map Config.problems =
          (l.load name fallback rest).map Config.problems) ∧
      ∀ c, l.load name fallback text = .ok c →
        (s = .params → Pairs.get? w.key c.params = some (paramValue (some w.value))) ∧
        (s = .info → c.info.Tells w.key w.value)) ∧
    (¬w.Kept →
      Pairs.get? w.key (keyValues (linesOf s (itemsFrom none (above ++ w.line :: below)))) =
        Pairs.get? w.key (keyValues (linesOf s (itemsFrom none (above ++ below))))) := by
  have hplain : Page.isMarkup ⟨name, fallback, text⟩ = false := hlines
  have hwritten : l.written ⟨name, fallback, text⟩ = .ofItems l.resolver name
      (itemsFrom none above ++ .line s w.line :: itemsFrom (some s) below) := by
    rw [written_append hplain hcontent hopen, itemsFrom_line]
  refine ⟨fun hm => ⟨_, load_plain hlines hm⟩,
    w.readKeyValue_line_iff, fun hkept => ?_, fun hlost => ?_⟩
  · have hread := w.readKeyValue_kept hkept
    refine ⟨fun rest hrestLines hrestContent => ?_, fun c hload => ?_⟩
    · have hrestPlain : Page.isMarkup ⟨name, fallback, rest⟩ = false := hrestLines
      have hmapper : s = .info → w.key ≠ "mapper" := by
        rintro rfl
        exact (hsetting.resolve_left nofun).2.2.1
      refine within_problems (p := ⟨name, fallback, text⟩) (q := ⟨name, fallback, rest⟩) hplain
        hrestPlain rfl ?_ ?_
      · rw [hwritten, written_append hrestPlain hrestContent hopen]
        exact mapper?_setting _ _ hread hmapper _ _
      · rw [hwritten, written_append hrestPlain hrestContent hopen]
        exact Config.problems_setting _ _ hread (hsetting.imp id fun h => ⟨h.1, h.2.1⟩) _ _
    · have hbuilt := (within_eq_ok (p := ⟨name, fallback, text⟩)).1 hload
      constructor
      · rintro rfl
        refine hbuilt.get?_params hplain ?_
        rw [hwritten]
        exact Config.get?_params _ _ hread _ hlast
      · rintro rfl
        refine hbuilt.tells hplain ?_
        rw [hwritten]
        exact Config.tells_info _ _ hread (hsetting.resolve_left nofun).2.2.2 w.value_ne _ hlast
  · obtain ⟨more, value, hread⟩ := w.readKeyValue_lost hlost
    rw [itemsFrom_append, itemsFrom_append, hopen, itemsFrom_line]
    exact get?_keyValues_line hread (fun _ => (w.longer_ne more).symm) _ _

/-- An address with a query. -/
def address (value : Text) (htrimmed : trim value = value) (hne : value ≠ []) : KeyValue where
  key := "url"
  value := value
  key_trimmed := by decide +kernel
  key_ne := by decide
  key_free := forall_mem_of_all (by decide)
  key_start := by decide
  value_trimmed := htrimmed
  value_ne := hne

/-- An address as a pattern. -/
def addressPattern : KeyValue :=
  address "~ https://x/?id=\x7b\x7b id \x7d\x7d" (by decide +kernel) (by decide)

/-- An address as a text. -/
def addressText : KeyValue := address "http://x?a=b" (by decide +kernel) (by decide)

/-- The address as a parameter, before another one. -/
def addressed (w : KeyValue) : Text := "[params]\n" ++ w.line ++ "\nid = 1"

theorem load_keyValue_pattern : ∃ c, bareLoader.load none none (addressed addressPattern) = .ok c ∧
    Pairs.get? addressPattern.key c.params =
      some (.template (Template.compile "https://x/?id=\x7b\x7b id \x7d\x7d")) := by
  have hlines : startsWith ['<'] (trim (addressed addressPattern)) = false := by decide +kernel
  have hcontent : contentLines (addressed addressPattern) =
      [("[params]" : Text)] ++ addressPattern.line :: [("id = 1" : Text)] := by decide +kernel
  have hlast : ∀ line ∈ linesOf .params (itemsFrom (some .params) [("id = 1" : Text)]), ∀ p,
      readKeyValue line = .ok p → p.1 ≠ addressPattern.key := by
    intro line hline p hp
    have hbelow : linesOf .params (itemsFrom (some .params) [("id = 1" : Text)]) =
        [("id = 1" : Text)] := by decide
    have hread : readKeyValue "id = 1" = .ok ("id", some "1") := by decide +kernel
    rw [hbelow, List.mem_singleton] at hline
    rw [hline, hread] at hp
    rw [← Except.ok.inj hp]
    decide
  have hkept : addressPattern.Kept := by decide +kernel
  have hm : mapper? (bareLoader.written ⟨none, none, addressed addressPattern⟩) = none := by
    decide +kernel
  have hload : bareLoader.load none none (addressed addressPattern) =
      .ok (bareLoader.written ⟨none, none, addressed addressPattern⟩) := load_plain hlines hm
  have hvalue := bareLoader.load_keyValue addressPattern none none hlines hcontent (by decide)
    (.inl rfl) hlast
  have hparam : paramValue (some addressPattern.value) =
      .template (Template.compile "https://x/?id=\x7b\x7b id \x7d\x7d") := by decide +kernel
  exact ⟨_, hload, hparam ▸ ((hvalue.2.2.1 hkept).2 _ hload).1 rfl⟩

/-- The `=` of the query is the last one of the line. -/
theorem query_lost : ∃ c, bareLoader.load none none (addressed addressText) = .ok c ∧
    c.problems = [] ∧ Pairs.get? addressText.key c.params = none ∧
      c.params.map (·.1) = [("url = http://x?a" : Text), ("id" : Text)] := by
  obtain ⟨c, hc, hparts⟩ := map_eq_ok.1 (by decide +kernel :
    (bareLoader.load none none (addressed addressText)).map
      (fun c => (c.problems, c.params)) =
        .ok ([], [("url = http://x?a", .text "b"), ("id", .text "1")]))
  obtain ⟨hproblems, hparams⟩ := Prod.mk.inj hparts
  exact ⟨c, hc, hproblems, by rw [hparams]; decide +kernel, by rw [hparams]; rfl⟩

end Loader
end Crosswalk
