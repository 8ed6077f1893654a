import Crosswalk.Host.Bundled
import Crosswalk.Mapping.Stack
import Crosswalk.Proofs.Mapping.Load

/-!
# Loading on a call stack ends

What is loaded on a stack is what is loaded without one, unless the stack overflows. It overflows
only when it does not hold the calls of one more level of includes than the limit, and an excess is
met only when it holds those of as many base mappers as the limit:

    OnStack (levelCalls * l.maxDepth ≤ stack) (stack < Include.levelCalls * (l.maxDepth + 1))
      (l.load name fallback text) (l.run stack name fallback text)             (run_onStack)

So a cycle is an excess or an overflow, whichever of the two the limit and the stack let come first
(`run_ends`).
-/

namespace Crosswalk

open Text Relation

/-! ## Results with and without a stack -/

/-- What a call gives on a stack beside what it gives without one. An excess is met where `fits`
holds, and the stack overflows where `full` does. -/
inductive OnStack {α : Type} (fits full : Prop) : Except Excess α → Except Stop α → Prop
  | ok (a : α) : OnStack fits full (.ok a) (.ok a)
  | excess {e : Excess} (h : fits) : OnStack fits full (.error e) (.error (.excess e))
  | overflow {r : Except Excess α} (h : full) : OnStack fits full r (.error .overflow)

theorem mapError_excess_inj {α : Type} {x y : Except Excess α}
    (h : x.mapError Stop.excess = y.mapError Stop.excess) : x = y := by
  cases x <;> cases y <;> simp_all [Except.mapError]

namespace OnStack

variable {α β : Type} {fits full fits' full' : Prop} {x : Except Excess α} {y : Except Stop α}

theorem mono (h : OnStack fits full x y) (hfits : fits → fits') (hfull : full → full') :
    OnStack fits' full' x y := by
  cases h with
  | ok a => exact .ok a
  | excess h => exact .excess (hfits h)
  | overflow h => exact .overflow (hfull h)

theorem map (h : OnStack fits full x y) (f : α → β) : OnStack fits full (x.map f) (y.map f) := by
  cases h with
  | ok a => exact .ok (f a)
  | excess h => exact .excess h
  | overflow h => exact .overflow h

theorem bind (h : OnStack fits full x y) {f : α → Except Excess β} {g : α → Except Stop β}
    (hfg : ∀ a, OnStack fits full (f a) (g a)) : OnStack fits full (x.bind f) (y.bind g) := by
  cases h with
  | ok a => exact hfg a
  | excess h => exact .excess h
  | overflow h => exact .overflow h

theorem mapM {f : α → Except Excess β} {g : α → Except Stop β} {xs : List α}
    (h : ∀ x ∈ xs, OnStack fits full (f x) (g x)) :
    OnStack fits full (xs.mapM f) (xs.mapM g) := by
  induction xs with
  | nil => exact .ok []
  | cons x xs ih =>
    rw [List.mapM_cons, List.mapM_cons]
    have htail := ih fun z hz => h z (List.mem_cons_of_mem x hz)
    exact (h x List.mem_cons_self).bind fun y => htail.bind fun ys => .ok (y :: ys)

/-- Calls one inside the other. -/
theorem call {calls stack : Nat} {f : Nat → Except Stop α} (hfull : stack < calls → full)
    (h : ∀ rest, stack = rest + calls → OnStack fits full x (f rest)) :
    OnStack fits full x (Stop.call calls stack f) := by
  unfold Stop.call
  split
  · exact h _ (by omega)
  · exact .overflow (hfull (by omega))

theorem error (h : OnStack fits full x y) (hx : ∃ e, x = .error e) : ∃ s, y = .error s := by
  obtain ⟨e, rfl⟩ := hx
  cases h with
  | excess _ => exact ⟨.excess e, rfl⟩
  | overflow _ => exact ⟨.overflow, rfl⟩

theorem eq_of_ok {a : α} (h : OnStack fits full x y) (hy : y = .ok a) : x = .ok a := by
  subst hy
  cases h with
  | ok => rfl

theorem of_excess {e : Excess} (h : OnStack fits full x y) (hy : y = .error (.excess e)) :
    fits ∧ x = .error e := by
  subst hy
  cases h with
  | excess hfits => exact ⟨hfits, rfl⟩

theorem full_of_overflow (h : OnStack fits full x y) (hy : y = .error .overflow) : full := by
  subst hy
  cases h with
  | overflow hfull => exact hfull

/-- Where the stack does not overflow it makes no difference. -/
theorem eq_mapError (h : OnStack fits full x y) (hfull : ¬ full) : y = x.mapError .excess := by
  cases h with
  | ok a => rfl
  | excess _ => rfl
  | overflow h => exact absurd h hfull

end OnStack

/-! ## Includes -/

namespace Include

variable {store : Store}

theorem expandOn_zero (stack : Nat) (fallback : Option Text) (s : Text) :
    expandOn 0 stack store fallback s =
      if hasIncludes s then .error (.excess .includes) else .ok s := by
  rw [expandOn]

/-- What stands for a reference, where its text is expanded on the stack. -/
def foundOn (room stack : Nat) (store : Store) (fallback : Option Text) (reference : Text) :
    Except Stop Text :=
  match target? store fallback reference with
  | none => .ok []
  | some (content, inner) =>
    Stop.call levelCalls stack fun rest => (expandOn room rest store inner content).map contentOf

theorem expandOn_succ (room stack : Nat) (fallback : Option Text) (s : Text) :
    expandOn (room + 1) stack store fallback s =
      if hasIncludes s then
        ((pieces form s).mapM (expandPiece (foundOn room stack store fallback))).map List.flatten
      else .ok s := by
  rw [expandOn]
  rfl

theorem expandOn_onStack (room stack : Nat) (store : Store) (fallback : Option Text) (s : Text) :
    OnStack (levelCalls * room ≤ stack) (stack < levelCalls * room) (expand room store fallback s)
      (expandOn room stack store fallback s) := by
  simp only [levelCalls]
  induction room generalizing stack fallback s with
  | zero =>
    rw [expand_zero, expandOn_zero]
    split
    · exact .excess (Nat.zero_le stack)
    · exact .ok s
  | succ room ih =>
    rw [expand_succ, expandOn_succ]
    split
    · refine (OnStack.mapM fun p _ => ?_).map List.flatten
      cases p with
      | char c => exact .ok [c]
      | found reference t =>
        simp only [expandPiece, found, foundOn, levelCalls]
        cases target? store fallback reference with
        | none => exact .ok []
        | some target =>
          refine .call (by omega) fun rest hrest => ?_
          have hcontent := ih rest target.2 target.1
          exact (hcontent.mono (by omega) (by omega)).map contentOf
    · exact .ok s

/-- A text in which no include is read takes nothing of the stack. -/
theorem expandOn_of_no_readings {room stack : Nat} {fallback : Option Text} {s : Text}
    (h : readings form s = []) : expandOn (room + 1) stack store fallback s = .ok s := by
  rw [expandOn_succ, pieces_of_no_readings h, ite_self]

end Include

/-! ## Mappings -/

namespace Loader

section

variable [Host] {l : Loader} {p : Page} {bases stack : Nat}

def runPage (l : Loader) (bases stack : Nat) (p : Page) : Except Stop Config :=
  l.runWithin bases stack p.name p.fallback p.text

def runPageAlone (l : Loader) (bases stack : Nat) (p : Page) : Except Stop Config :=
  l.runAlone bases stack p.name p.fallback p.text

theorem runPageAlone_markup (hp : p.isMarkup = true) :
    l.runPageAlone bases stack p = (Include.expandOn (l.includeRoom bases) stack l.store
      p.source.fallback p.source.text).map (Config.ofXml l.resolver p.name) :=
  readAlone_markup hp

theorem runPageAlone_plain (hp : p.isMarkup = false) :
    l.runPageAlone bases stack p = .ok (l.written p) :=
  readAlone_plain hp

theorem runPageAlone_onStack (hl : 0 ≤ l.maxDepth) :
    OnStack (levelCalls * bases ≤ stack) (stack < Include.levelCalls * (bases + 1))
      (l.alone bases p) (l.runPageAlone bases stack p) := by
  cases hp : p.isMarkup with
  | false =>
    rw [alone_plain hp, runPageAlone_plain hp]
    exact .ok _
  | true =>
    rw [alone_markup hp, runPageAlone_markup hp, includeRoom_eq hl]
    have hexpand := Include.expandOn_onStack (bases + 1) stack l.store p.source.fallback
      p.source.text
    refine (hexpand.mono ?_ id).map _
    simp only [levelCalls, Include.levelCalls]
    omega

theorem runPage_zero : l.runPage 0 stack p = (l.runPageAlone 0 stack p).bind fun c =>
    match mapper? c with
    | some m => .error (.excess (.bases (p.name.getD []) m))
    | none => .ok c := by
  unfold runPage
  rw [runWithin]
  simp only [overBase_eq]
  rfl

theorem runPage_succ : l.runPage (bases + 1) stack p =
    (l.runPageAlone (bases + 1) stack p).bind fun c =>
      match mapper? c with
      | none => .ok c
      | some m =>
        match l.base? m with
        | none => .ok { c with problems := c.problems ++ [.missingBase m] }
        | some content => Stop.call levelCalls stack fun rest =>
          (l.runPage bases rest (l.basePage m content)).map fun base => base.compose c := by
  unfold runPage
  rw [runWithin]
  simp only [overBase_eq]
  refine congrArg _ (funext fun c => ?_)
  cases mapper? c <;> rfl

theorem runPage_onStack (hl : 0 ≤ l.maxDepth) (bases stack : Nat) (p : Page) :
    OnStack (levelCalls * bases ≤ stack) (stack < Include.levelCalls * (bases + 1))
      (l.within bases p) (l.runPage bases stack p) := by
  induction bases generalizing stack p with
  | zero =>
    rw [within_zero, runPage_zero]
    refine (runPageAlone_onStack hl).bind fun c => ?_
    cases mapper? c with
    | none => exact .ok c
    | some m => exact .excess (Nat.zero_le stack)
  | succ bases ih =>
    rw [within_succ, runPage_succ]
    refine (runPageAlone_onStack hl).bind fun c => ?_
    cases mapper? c with
    | none => exact .ok c
    | some m =>
      dsimp only
      cases l.base? m with
      | none => exact .ok _
      | some content =>
        simp only [levelCalls, Include.levelCalls] at ih ⊢
        refine .call (by omega) fun rest hrest => ?_
        have hbase := ih rest (l.basePage m content)
        exact (hbase.mono (by omega) (by omega)).map _

theorem run_onStack (hl : 0 ≤ l.maxDepth) (stack : Nat) (name fallback : Option Text)
    (text : Text) :
    OnStack (levelCalls * l.maxDepth ≤ stack) (stack < Include.levelCalls * (l.maxDepth + 1))
      (l.load name fallback text) (l.run stack name fallback text) := by
  have h := runPage_onStack hl l.maxDepth.toNat stack ⟨name, fallback, text⟩
  simp only [levelCalls, Include.levelCalls] at h ⊢
  exact h.mono (by omega) (by omega)

/-- A text that refers to no other takes nothing of the stack. -/
theorem runPage_single (hl : 0 ≤ l.maxDepth) (h : RefersToNone l p) :
    l.runPage bases stack p = .ok (l.written p) := by
  have halone : l.runPageAlone bases stack p = .ok (l.written p) := by
    cases hp : p.isMarkup with
    | false => exact runPageAlone_plain hp
    | true =>
      have hexpand : Include.expandOn (bases + 1) stack l.store p.source.fallback p.source.text =
          .ok (trim p.text) := Include.expandOn_of_no_readings (h.1 hp)
      rw [runPageAlone_markup hp, includeRoom_eq hl, hexpand, written,
        if_neg (Page.trim_ne_nil hp), if_pos hp]
      rfl
  cases bases with
  | zero => rw [runPage_zero, halone]; simp only [Except.bind, h.2]
  | succ bases => rw [runPage_succ, halone]; simp only [Except.bind, h.2]

end

/-- A mapping that includes itself. -/
theorem including_reachesCycle [Host] (maxDepth : Int) :
    ReachesIncludeCycle (ofRegistered [("a", including)] maxDepth) ⟨none, none, including⟩ := by
  have hleads : Include.Leads ⟨[], "user", [("a", including)], []⟩ ⟨none, including⟩
      ⟨none, including⟩ := ⟨"mapping:a", by decide +kernel, by decide +kernel⟩
  refine ⟨_, .refl, by decide, ?_⟩
  rw [source_including]
  exact ⟨_, .refl, .single hleads⟩

/-- Loading ends on every stack: with the mapping, with an excess where the stack holds the base
mappers that the limit allows, or with an overflow where it does not hold one more level of includes
than that. A cycle is never loaded, and a text that refers to no other is loaded as it stands. -/
theorem run_ends [Host] (l : Loader) (hl : 0 ≤ l.maxDepth) (stack : Nat)
    (name fallback : Option Text) (text : Text) :
    (∀ c, l.run stack name fallback text = .ok c → Loads l 0 ⟨name, fallback, text⟩ (.ok c)) ∧
    (∀ e, l.run stack name fallback text = .error (.excess e) →
      levelCalls * l.maxDepth ≤ stack ∧ Loads l 0 ⟨name, fallback, text⟩ (.error e)) ∧
    (l.run stack name fallback text = .error .overflow →
      stack < Include.levelCalls * (l.maxDepth + 1)) ∧
    (Include.levelCalls * (l.maxDepth + 1) ≤ stack → ∀ r, Loads l 0 ⟨name, fallback, text⟩ r ↔
      l.run stack name fallback text = r.mapError .excess) ∧
    (ReachesIncludeCycle l ⟨name, fallback, text⟩ ∨
        ReachesCycle (BasedOn l) ⟨name, fallback, text⟩ →
      ∃ s, l.run stack name fallback text = .error s) ∧
    (RefersToNone l ⟨name, fallback, text⟩ →
      l.run stack name fallback text = .ok (l.written ⟨name, fallback, text⟩)) := by
  have hrun := run_onStack hl stack name fallback text
  refine ⟨?_, ?_, ?_, ?_, ?_, fun h => runPage_single hl h⟩
  · intro c hc
    exact (loads_load hl).2 (hrun.eq_of_ok hc).symm
  · intro e he
    obtain ⟨hfits, hload⟩ := hrun.of_excess he
    exact ⟨hfits, (loads_load hl).2 hload.symm⟩
  · exact hrun.full_of_overflow
  · intro hlimit r
    rw [loads_load hl, hrun.eq_mapError (by omega)]
    exact ⟨fun h => by rw [h], fun h => (mapError_excess_inj h).symm⟩
  · rintro (h | h)
    · exact hrun.error (within_of_include_cycle h _)
    · exact hrun.error (within_of_base_cycle h _)

/-- Below a limit that the stack holds, a mapping that includes itself is an excess; one that refers
to no other is loaded. -/
theorem run_ends_registered :
    (0 : Int) ≤ (ofRegistered [("a", including)] 20).maxDepth ∧
      (∃ e, (ofRegistered [("a", including)] 20).run stackCalls none none including =
        .error (.excess e)) ∧
      (ofRegistered [("a", including)] 20).run stackCalls none none "[info]\nlabel = A" =
        .ok ((ofRegistered [("a", including)] 20).written ⟨none, none, "[info]\nlabel = A"⟩) := by
  have hl : (0 : Int) ≤ (ofRegistered [("a", including)] 20).maxDepth := by decide
  have hsingle : RefersToNone (ofRegistered [("a", including)] 20)
      ⟨none, none, "[info]\nlabel = A"⟩ := ⟨by decide +kernel, by decide +kernel⟩
  obtain ⟨-, -, hfull, -, hcycle, -⟩ := run_ends _ hl stackCalls none none including
  obtain ⟨s, hs⟩ := hcycle (.inl (including_reachesCycle 20))
  refine ⟨hl, ?_, (run_ends _ hl stackCalls none none _).2.2.2.2.2 hsingle⟩
  cases s with
  | excess e => exact ⟨e, hs⟩
  | overflow =>
    have hlt : (stackCalls : Int) < Include.levelCalls * (20 + 1) := hfull hs
    exact absurd hlt (by decide)

/-- Below a limit that goes further it overflows the stack, which is no excess. -/
theorem including_overflows :
    (0 : Int) ≤ (ofRegistered [("a", including)] 100000).maxDepth ∧
      ReachesIncludeCycle (ofRegistered [("a", including)] 100000) ⟨none, none, including⟩ ∧
      (ofRegistered [("a", including)] 100000).run stackCalls none none including =
        .error .overflow := by
  have hl : (0 : Int) ≤ (ofRegistered [("a", including)] 100000).maxDepth := by decide
  have hcycle := including_reachesCycle 100000
  have hrun := run_onStack hl stackCalls none none including
  refine ⟨hl, hcycle, ?_⟩
  obtain ⟨s, hs⟩ := hrun.error (within_of_include_cycle hcycle _)
  cases s with
  | excess e =>
    have hle : levelCalls * (100000 : Int) ≤ stackCalls := (hrun.of_excess hs).1
    exact absurd hle (by decide)
  | overflow => exact hs

end Loader
end Crosswalk
