import Crosswalk.Host.Bundled
import Crosswalk.Mapping.Load
import Crosswalk.Proofs.Mapping.Include
import Mathlib.Data.List.Basic

/-!
# Loading ends

A mapping leads to the mappings that it includes and to its base mapper, which leads further. The
limit counts both: loading gives one result, whatever the mappings refer to, and a cycle is an
excess of one kind or the other.

    Loads l 0 ⟨name, fallback, text⟩ r ↔ r = l.load name fallback text     (loads_load)

where `Loads` counts the mappings below the first one up to the limit. How far a chain may reach
depends on its kind: a chain of `k` base mappers is an excess when `k` is above the limit, a chain
of `k` includes only when it is above the limit by more than one (`load_chain`).
-/

namespace Crosswalk

open Text Relation

namespace Loader

/-- The text of a mapping, with what is known about where it was found. -/
structure Page where
  name : Option Text
  fallback : Option Text
  text : Text

/-! ## One mapping alone -/

def alone [Host] (l : Loader) (bases : Nat) (p : Page) : Except Excess Config :=
  l.loadAlone bases p.name p.fallback p.text

def within [Host] (l : Loader) (bases : Nat) (p : Page) : Except Excess Config :=
  l.loadWithin bases p.name p.fallback p.text

/-- Whether the text is in xml. -/
def Page.isMarkup (p : Page) : Bool := startsWith ['<'] (trim p.text)

/-- The text as it is when its includes are expanded. -/
def Page.source (p : Page) : Include.Source := ⟨p.fallback, trim p.text⟩

/-- The mapping as it is written, without what it includes. -/
def written [Host] (l : Loader) (p : Page) : Config :=
  if trim p.text = [] then { Config.empty with info := { Info.empty with label := p.name } }
  else if p.isMarkup then .ofXml l.resolver p.name (trim p.text)
  else .ofLines l.resolver p.name (trim p.text)

/-- The base mapper that a mapping names. -/
def mapper? (c : Config) : Option Text := c.info.mapper.bind Template.nonEmpty

variable {l : Loader} {p q : Page} {bases : Nat}

theorem Page.trim_ne_nil (h : p.isMarkup = true) : trim p.text ≠ [] := by
  intro hnil
  rw [isMarkup, hnil] at h
  cases h

theorem readAlone_markup [Host] {ε : Type} {expand : Text → Except ε Text} (h : p.isMarkup = true) :
    l.readAlone expand p.name p.text = (expand (trim p.text)).map (Config.ofXml l.resolver p.name) := by
  unfold readAlone
  rw [if_neg (Page.trim_ne_nil h)]
  exact if_pos h

theorem readAlone_plain [Host] {ε : Type} {expand : Text → Except ε Text} (h : p.isMarkup = false) :
    l.readAlone expand p.name p.text = .ok (l.written p) := by
  unfold readAlone written
  by_cases hs : trim p.text = []
  · rw [if_pos hs, if_pos hs]
  · have hnot : ¬ startsWith ['<'] (trim p.text) = true := by
      rw [← Page.isMarkup, h]
      decide
    simp only [if_neg hs, h]
    exact if_neg hnot

theorem alone_markup [Host] (h : p.isMarkup = true) :
    l.alone bases p = (Include.expand (l.includeRoom bases) l.store p.source.fallback
      p.source.text).map (Config.ofXml l.resolver p.name) :=
  readAlone_markup h

theorem alone_plain [Host] (h : p.isMarkup = false) : l.alone bases p = .ok (l.written p) :=
  readAlone_plain h

/-- A mapping that is read with some room is the same with more. -/
theorem alone_of_le [Host] {more : Nat} (hle : bases ≤ more) {c : Config}
    (h : l.alone bases p = .ok c) : l.alone more p = .ok c := by
  cases hp : p.isMarkup with
  | false => rw [alone_plain hp] at h ⊢; exact h
  | true =>
    rw [alone_markup hp] at h ⊢
    have hroom : l.includeRoom bases ≤ l.includeRoom more := by
      unfold includeRoom
      split <;> omega
    cases he : Include.expand (l.includeRoom bases) l.store p.source.fallback p.source.text with
    | error e => rw [he] at h; cases h
    | ok s =>
      rw [he] at h
      rw [Include.expand_of_le hroom he]
      exact h

theorem alone_unique [Host] {more : Nat} {c d : Config} (h : l.alone bases p = .ok c)
    (h' : l.alone more p = .ok d) : c = d := by
  have hc := alone_of_le (Nat.le_max_left bases more) h
  rw [alone_of_le (Nat.le_max_right bases more) h'] at hc
  exact (Except.ok.inj hc).symm

theorem overBase_eq {ε : Type} (c : Config) (f : Text → Except ε Config) :
    overBase c f = match mapper? c with | some m => f m | none => .ok c := by
  unfold overBase mapper?
  cases c.info.mapper with
  | none => rfl
  | some m => cases m <;> rfl

/-- The page of a base mapper. -/
def basePage (l : Loader) (mapper content : Text) : Page :=
  ⟨some mapper, some (l.baseFallback mapper), content⟩

theorem within_zero [Host] : l.within 0 p = (l.alone 0 p).bind fun c =>
    match mapper? c with
    | some m => .error (.bases (p.name.getD []) m)
    | none => .ok c := by
  unfold within
  rw [loadWithin]
  simp only [overBase_eq]
  rfl

theorem within_succ [Host] : l.within (bases + 1) p = (l.alone (bases + 1) p).bind fun c =>
    match mapper? c with
    | none => .ok c
    | some m =>
      match l.base? m with
      | none => .ok { c with problems := c.problems ++ [.missingBase m] }
      | some content => (l.within bases (l.basePage m content)).map fun base => base.compose c := by
  unfold within
  rw [loadWithin]
  simp only [overBase_eq]
  refine congrArg _ (funext fun c => ?_)
  cases mapper? c <;> rfl

/-! ## Base mappers -/

/-- A mapping is composed over another one: alone it names a base mapper that can be read. -/
def BasedOn [Host] (l : Loader) (p q : Page) : Prop :=
  ∃ bases c m content, l.alone bases p = .ok c ∧ mapper? c = some m ∧ l.base? m = some content ∧
    q = l.basePage m content

/-- A mapping that cannot be read alone cannot be loaded. -/
theorem within_of_alone [Host] (h : ∃ e, l.alone bases p = .error e) :
    ∃ e, l.within bases p = .error e := by
  obtain ⟨e, he⟩ := h
  cases bases with
  | zero => exact ⟨e, by rw [within_zero, he]; rfl⟩
  | succ bases => exact ⟨e, by rw [within_succ, he]; rfl⟩

/-- Neither can one whose base mapper cannot be loaded. -/
theorem BasedOn.within_succ [Host] (h : BasedOn l p q) (hq : ∃ e, l.within bases q = .error e) :
    ∃ e, l.within (bases + 1) p = .error e := by
  obtain ⟨n, c, m, content, hc, hm, hb, rfl⟩ := h
  obtain ⟨e, he⟩ := hq
  cases ha : l.alone (bases + 1) p with
  | error e' => exact within_of_alone ⟨e', ha⟩
  | ok d =>
    obtain rfl := alone_unique ha hc
    refine ⟨e, ?_⟩
    rw [Loader.within_succ, ha]
    simp only [Except.bind, hm, hb, he]
    rfl

/-- Without room, a mapping that has a base mapper cannot be loaded. -/
theorem BasedOn.within_zero [Host] (h : BasedOn l p q) : ∃ e, l.within 0 p = .error e := by
  obtain ⟨n, c, m, content, hc, hm, -, -⟩ := h
  cases ha : l.alone 0 p with
  | error e => exact within_of_alone ⟨e, ha⟩
  | ok d =>
    obtain rfl := alone_unique ha hc
    refine ⟨.bases (p.name.getD []) m, ?_⟩
    rw [Loader.within_zero, ha]
    simp only [Except.bind, hm]

theorem within_of_steps [Host] (h : Steps (BasedOn l) (bases + 1) p q) :
    ∃ e, l.within bases p = .error e := by
  induction bases generalizing p with
  | zero =>
    obtain ⟨c, hpc, -⟩ := steps_succ.1 h
    exact hpc.within_zero
  | succ bases ih =>
    obtain ⟨c, hpc, hcq⟩ := steps_succ.1 h
    exact hpc.within_succ (ih hcq)

/-- What cannot be loaded whatever the room spoils all that is composed over it. -/
theorem within_of_reach [Host] (h : ReflTransGen (BasedOn l) p q)
    (hq : ∀ n, ∃ e, l.within n q = .error e) : ∀ n, ∃ e, l.within n p = .error e := by
  induction h using ReflTransGen.head_induction_on with
  | refl => exact hq
  | head hpc _ ih =>
    intro n
    cases n with
    | zero => exact hpc.within_zero
    | succ n => exact hpc.within_succ (ih n)

/-! ## Cycles -/

/-- The text, or one that it is composed over, includes itself by way of others. -/
def ReachesIncludeCycle [Host] (l : Loader) (p : Page) : Prop :=
  ∃ q, ReflTransGen (BasedOn l) p q ∧ q.isMarkup = true ∧
    ReachesCycle (Include.Leads l.store) q.source

theorem within_of_include_cycle [Host] (h : ReachesIncludeCycle l p) (n : Nat) :
    ∃ e, l.within n p = .error e := by
  obtain ⟨q, hpq, hq, hcycle⟩ := h
  refine within_of_reach hpq (fun n => within_of_alone ?_) n
  rw [alone_markup hq]
  exact (Include.expand_of_cycle hcycle _).imp fun _ => map_eq_error.2

theorem within_of_base_cycle [Host] (h : ReachesCycle (BasedOn l) p) (n : Nat) :
    ∃ e, l.within n p = .error e := by
  obtain ⟨q, hpq, -⟩ := h.steps (n + 1)
  exact within_of_steps hpq

/-! ## Mappings on their own -/

/-- The text includes nothing, and the mapping names no base mapper. -/
def RefersToNone [Host] (l : Loader) (p : Page) : Prop :=
  (p.isMarkup = true → readings Include.form (trim p.text) = []) ∧ mapper? (l.written p) = none

theorem includeRoom_eq (hl : 0 ≤ l.maxDepth) (bases : Nat) : l.includeRoom bases = bases + 1 :=
  if_neg (by omega)

/-! ## Counting up to the limit -/

/-- Reading a mapping alone at a depth. -/
inductive Alone [Host] (l : Loader) (depth : Int) (p : Page) : Except Excess Config → Prop
  | plain (h : p.isMarkup = false) : Alone l depth p (.ok (l.written p))
  | markup (h : p.isMarkup = true) {r : Except Excess Text}
      (hr : Include.Expands l.store l.maxDepth depth p.source r) :
      Alone l depth p (r.map (Config.ofXml l.resolver p.name))

/-- Loading a mapping at a depth: its base mapper is loaded one level deeper, unless the limit is
reached. -/
inductive Loads [Host] (l : Loader) : Int → Page → Except Excess Config → Prop
  | unread {depth : Int} {p : Page} {e : Excess} (h : Alone l depth p (.error e)) :
      Loads l depth p (.error e)
  | single {depth : Int} {p : Page} {c : Config} (h : Alone l depth p (.ok c))
      (hm : mapper? c = none) : Loads l depth p (.ok c)
  | tooDeep {depth : Int} {p : Page} {c : Config} {m : Text} (h : Alone l depth p (.ok c))
      (hm : mapper? c = some m) (hd : l.maxDepth ≤ depth) :
      Loads l depth p (.error (.bases (p.name.getD []) m))
  | missing {depth : Int} {p : Page} {c : Config} {m : Text} (h : Alone l depth p (.ok c))
      (hm : mapper? c = some m) (hd : depth < l.maxDepth) (hb : l.base? m = none) :
      Loads l depth p (.ok { c with problems := c.problems ++ [.missingBase m] })
  | composed {depth : Int} {p : Page} {c : Config} {m content : Text} {r : Except Excess Config}
      (h : Alone l depth p (.ok c)) (hm : mapper? c = some m) (hd : depth < l.maxDepth)
      (hb : l.base? m = some content) (hr : Loads l (depth + 1) (l.basePage m content) r) :
      Loads l depth p (r.map fun base => base.compose c)

section
variable {depth : Int}

theorem alone_iff [Host] (hl : 0 ≤ l.maxDepth) (hdepth : depth + bases = l.maxDepth)
    {r : Except Excess Config} : Alone l depth p r ↔ r = l.alone bases p := by
  have hroom : depth + (l.includeRoom bases : Nat) = l.maxDepth + 1 := by
    rw [includeRoom_eq hl]
    omega
  cases hp : p.isMarkup with
  | false =>
    rw [alone_plain hp]
    constructor
    · intro h
      cases h with
      | plain => rfl
      | markup h => rw [hp] at h; cases h
    · rintro rfl
      exact .plain hp
  | true =>
    rw [alone_markup hp]
    constructor
    · intro h
      cases h with
      | plain h => rw [hp] at h; cases h
      | markup _ hr => rw [(Include.expands_iff hroom).1 hr]
    · rintro rfl
      exact .markup hp ((Include.expands_iff hroom).2 rfl)

theorem loads_at_limit [Host] (hl : 0 ≤ l.maxDepth) {r : Except Excess Config} :
    Loads l l.maxDepth p r ↔ r = l.within 0 p := by
  have halone {r : Except Excess Config} : Alone l l.maxDepth p r ↔ r = l.alone 0 p :=
    alone_iff hl (by simp)
  rw [within_zero]
  constructor
  · intro h
    cases h with
    | unread h => rw [← halone.1 h]; rfl
    | single h hm => rw [← halone.1 h]; simp only [Except.bind, hm]
    | tooDeep h hm => rw [← halone.1 h]; simp only [Except.bind, hm]
    | missing _ _ hd => exact absurd hd (Int.lt_irrefl _)
    | composed _ _ hd => exact absurd hd (Int.lt_irrefl _)
  · rintro rfl
    cases ha : l.alone 0 p with
    | error e => exact .unread (halone.2 ha.symm)
    | ok c =>
      simp only [Except.bind]
      cases hm : mapper? c with
      | none => exact .single (halone.2 ha.symm) hm
      | some m => exact .tooDeep (halone.2 ha.symm) hm (Int.le_refl _)

/-- Below the limit a base mapper is loaded as the next level says. -/
theorem loads_below [Host] (hl : 0 ≤ l.maxDepth) (hdepth : depth + (bases + 1 : Nat) = l.maxDepth)
    (hlevel : ∀ q r, Loads l (depth + 1) q r ↔ r = l.within bases q) {r : Except Excess Config} :
    Loads l depth p r ↔ r = l.within (bases + 1) p := by
  have halone {r : Except Excess Config} : Alone l depth p r ↔ r = l.alone (bases + 1) p :=
    alone_iff hl hdepth
  rw [within_succ]
  constructor
  · intro h
    cases h with
    | unread h => rw [← halone.1 h]; rfl
    | single h hm => rw [← halone.1 h]; simp only [Except.bind, hm]
    | tooDeep _ _ hd => omega
    | missing h hm _ hb => rw [← halone.1 h]; simp only [Except.bind, hm, hb]
    | composed h hm _ hb hr =>
      rw [← halone.1 h, (hlevel _ _).1 hr]
      simp only [Except.bind, hm, hb]
  · rintro rfl
    cases ha : l.alone (bases + 1) p with
    | error e => exact .unread (halone.2 ha.symm)
    | ok c =>
      simp only [Except.bind]
      cases hm : mapper? c with
      | none => exact .single (halone.2 ha.symm) hm
      | some m =>
        dsimp only
        cases hb : l.base? m with
        | none => exact .missing (halone.2 ha.symm) hm (by omega) hb
        | some content => exact .composed (halone.2 ha.symm) hm (by omega) hb ((hlevel _ _).2 rfl)

theorem loads_iff [Host] (hl : 0 ≤ l.maxDepth) (hdepth : depth + bases = l.maxDepth)
    {r : Except Excess Config} : Loads l depth p r ↔ r = l.within bases p := by
  induction bases generalizing depth p r with
  | zero =>
    obtain rfl : depth = l.maxDepth := by simpa using hdepth
    exact loads_at_limit hl
  | succ bases ih => exact loads_below hl hdepth fun q r => ih (by omega)

end

theorem loads_load [Host] (hl : 0 ≤ l.maxDepth) {name fallback : Option Text} {text : Text}
    {r : Except Excess Config} :
    Loads l 0 ⟨name, fallback, text⟩ r ↔ r = l.load name fallback text :=
  loads_iff hl (by omega)

/-! ## Chains -/

/-- A loader of registered mappings. -/
def ofRegistered (registered : Pairs Text Text) (maxDepth : Int) : Loader :=
  ⟨⟨⟨[], [], [], []⟩, false, []⟩, ⟨[], "user", registered, []⟩, maxDepth⟩

/-- A mapping that includes the registered one. -/
def including : Text := "<mapping><include mapping=\"mapping:a\"/></mapping>"

theorem source_including : Page.source ⟨none, none, including⟩ = ⟨none, including⟩ := by
  rw [Page.source]
  congr 1

/-- The mapping names a base mapper, which names the next one, and so on: `k` base mappers, the
last of which names none. Alone, each of them can be read. -/
inductive BaseChain [Host] (l : Loader) : Nat → Page → Prop
  | last {p : Page} {c : Config} (h : ∀ n, l.alone n p = .ok c) (hm : mapper? c = none) :
      BaseChain l 0 p
  | next {k : Nat} {p : Page} {c : Config} {m content : Text} (h : ∀ n, l.alone n p = .ok c)
      (hm : mapper? c = some m) (hb : l.base? m = some content)
      (hnext : BaseChain l k (l.basePage m content)) : BaseChain l (k + 1) p

theorem within_base_chain [Host] {k : Nat} (h : BaseChain l k p) (n : Nat) :
    (∃ e, l.within n p = .error e) ↔ n < k := by
  induction n generalizing k p with
  | zero =>
    rw [within_zero]
    cases h with
    | last h hm =>
      rw [h 0]
      simp only [Except.bind, hm]
      simp
    | next h hm =>
      rw [h 0]
      simp only [Except.bind, hm]
      simp
  | succ n ih =>
    rw [within_succ]
    cases h with
    | last h hm =>
      rw [h (n + 1)]
      simp only [Except.bind, hm]
      simp
    | next h hm hb hnext =>
      rw [h (n + 1)]
      simp only [Except.bind, hm, hb]
      simp only [map_eq_error]
      rw [ih hnext]
      omega

/-- An xml text at the head of a chain of includes that names no base mapper. -/
def IncludeChain [Host] (l : Loader) (k : Nat) (p : Page) : Prop :=
  p.isMarkup = true ∧ Include.Chain l.store k p.source ∧
    ∀ n c, l.alone n p = .ok c → mapper? c = none

theorem within_include_chain [Host] (hl : 0 ≤ l.maxDepth) {k : Nat} (h : IncludeChain l k p)
    (n : Nat) :
    (∃ e, l.within n p = .error e) ↔ n + 1 < k := by
  obtain ⟨hp, hchain, hm⟩ := h
  have halone : (∃ e, l.alone n p = .error e) ↔ n + 1 < k := by
    simp only [alone_markup hp, map_eq_error]
    rw [includeRoom_eq hl]
    exact Include.expand_chain hchain (n + 1)
  rw [← halone]
  cases ha : l.alone n p with
  | error e => exact iff_of_true (within_of_alone ⟨e, ha⟩) ⟨e, rfl⟩
  | ok c =>
    have hnone := hm n c ha
    refine iff_of_false ?_ (by simp)
    rintro ⟨e, he⟩
    cases n with
    | zero => rw [within_zero, ha] at he; simp [Except.bind, hnone] at he
    | succ n => rw [within_succ, ha] at he; simp [Except.bind, hnone] at he

/-- The limit is exact for chains of base mappers; chains of includes may be one longer. -/
theorem load_chain [Host] (l : Loader) (hl : 0 ≤ l.maxDepth) (k : Nat) (name fallback : Option Text)
    (text : Text) :
    (IncludeChain l k ⟨name, fallback, text⟩ →
      ((∃ e, l.load name fallback text = .error e) ↔ l.maxDepth + 1 < k)) ∧
    (BaseChain l k ⟨name, fallback, text⟩ →
      ((∃ e, l.load name fallback text = .error e) ↔ l.maxDepth < k)) := by
  constructor
  · intro h
    exact (within_include_chain hl h _).trans (by omega)
  · intro h
    exact (within_base_chain h _).trans (by omega)

/-- A mapping that includes one that includes nothing. -/
theorem includeChain_one :
    IncludeChain (ofRegistered [("a", "<mapping/>")] 0) 1 ⟨none, none, including⟩ := by
  refine ⟨by decide, ?_, ?_⟩
  · rw [source_including]
    have hreadings : readings Include.form including = [("mapping:a" : Text)] := by
      decide +kernel
    have htarget : Include.target? (ofRegistered [("a", "<mapping/>")] 0).store none "mapping:a" =
        some (("<mapping/>" : Text), none) := by decide +kernel
    refine .next (b := ⟨none, "<mapping/>"⟩) ⟨"mapping:a", by simp [hreadings], htarget⟩ ?_
      (.last (by decide))
    rintro ⟨fallback, text⟩ ⟨reference, hmem, hc⟩
    obtain rfl : reference = "mapping:a" := by
      simpa only [hreadings, List.mem_singleton] using hmem
    rw [htarget] at hc
    obtain ⟨rfl, rfl⟩ := Prod.mk.inj (Option.some.inj hc)
    rfl
  · intro n c hc
    have hzero : (ofRegistered [("a", "<mapping/>")] 0).alone 0 ⟨none, none, including⟩ =
        .ok ((ofRegistered [("a", "<mapping/>")] 0).written
          ⟨none, none, "<mapping><mapping/></mapping>"⟩) := by decide +kernel
    rw [← alone_unique hzero hc]
    decide +kernel

/-- A mapping over one that has no base mapper. -/
theorem baseChain_one :
    BaseChain (ofRegistered [("a", "[info]\nlabel = A")] 0) 1
      ⟨none, none, "[info]\nmapper = mapping:a"⟩ := by
  have hm : mapper? ((ofRegistered [("a", "[info]\nlabel = A")] 0).written
      ⟨none, none, "[info]\nmapper = mapping:a"⟩) = some "mapping:a" := by decide +kernel
  have hb : (ofRegistered [("a", "[info]\nlabel = A")] 0).base? "mapping:a" =
      some "[info]\nlabel = A" := by decide +kernel
  exact .next (fun _ => alone_plain (by decide)) hm hb
    (.last (fun _ => alone_plain (by decide)) (by decide +kernel))

/-- Below the limit zero a mapping may be included, though none may be the base mapper. -/
theorem load_chain_one :
    (0 : Int) ≤ (ofRegistered [("a", "<mapping/>")] 0).maxDepth ∧
      (¬ ∃ e, (ofRegistered [("a", "<mapping/>")] 0).load none none including = .error e) ∧
      ∃ e, (ofRegistered [("a", "[info]\nlabel = A")] 0).load none none
        "[info]\nmapper = mapping:a" = .error e := by
  refine ⟨by decide, ?_, ?_⟩
  · rw [(load_chain (ofRegistered [("a", "<mapping/>")] 0) (by decide) 1 none none including).1
      includeChain_one]
    decide
  · rw [(load_chain (ofRegistered [("a", "[info]\nlabel = A")] 0) (by decide) 1 none none
      "[info]\nmapper = mapping:a").2 baseChain_one]
    decide

/-- A chain of one include is above the limit zero, and is loaded all the same. -/
theorem include_above_limit :
    IncludeChain (ofRegistered [("a", "<mapping/>")] 0) 1 ⟨none, none, including⟩ ∧
      (ofRegistered [("a", "<mapping/>")] 0).maxDepth < 1 ∧
      (ofRegistered [("a", "<mapping/>")] 0).load none none including =
        .ok ((ofRegistered [("a", "<mapping/>")] 0).written
          ⟨none, none, "<mapping><mapping/></mapping>"⟩) :=
  ⟨includeChain_one, by decide, by decide +kernel⟩

end Loader
end Crosswalk
