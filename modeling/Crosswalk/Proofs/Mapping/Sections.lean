import Crosswalk.Mapping.Lines
import Crosswalk.Proofs.Merge
import Crosswalk.Proofs.Text.Words
import Mathlib.Data.List.Induction

/-!
# The layout of a mapping in lines

A mapping in lines is a row of stretches, each a heading with the lines below it. What it says
depends on the lines of each section, and on the services whose blocks are opened:

    SameContent (stretches a) (stretches b) → Config.ofLines r name a = Config.ofLines r name b

when all headings are known (`ofLines_layout`). So sections may stand in any order and in several
pieces, and comments, blank lines and indentation may stand anywhere (`SameContent.swap`,
`SameContent.split`, `stretches_insert`, `stretches_indent`).
-/

namespace Crosswalk

open Text

/-! ## Stretches -/

/-- A heading with the lines below it, up to the next heading. -/
structure Stretch where
  heading : Text
  lines : List Text
  deriving DecidableEq

/-- The lines before the first heading, and the stretches. Comments are in neither. -/
def cutStretches : List Text → List Text × List Stretch
  | [] => ([], [])
  | line :: lines =>
    let p := cutStretches lines
    if startsWith [';'] line then p
    else if startsWith ['['] line then ([], ⟨line, p.1⟩ :: p.2)
    else (line :: p.1, p.2)

def stretches (text : Text) : List Stretch := (cutStretches (contentLines text)).2

namespace Stretch

/-- The section that the heading opens. -/
def section? (st : Stretch) : Option Section := (openSection st.heading).1

/-- The service whose block the heading opens. -/
def service? (st : Stretch) : Option BlockHeader :=
  match (headerName? st.heading).bind sectionOf? with
  | some _ => none
  | none => blockHeader? st.heading

end Stretch

variable {s : Section} {st : Stretch} {ss ss' : List Stretch}

/-- All headings open a section or a block. -/
def Managed (ss : List Stretch) : Prop := ∀ st ∈ ss, st.section?.isSome = true

instance : Decidable (Managed ss) := inferInstanceAs (Decidable (∀ st ∈ ss, _))

/-- The lines of a section, wherever they stand. -/
def linesUnder (s : Section) (ss : List Stretch) : List Text :=
  ss.flatMap fun st => if st.section? = some s then st.lines else []

/-- The services whose blocks are opened, each by its first heading. -/
def servicesOf (ss : List Stretch) : List BlockHeader :=
  distinctOn BlockHeader.key (ss.filterMap Stretch.service?)

/-- The blocks as they are opened, each with its lines. -/
def blocksUnder (ss : List Stretch) : List (BlockHeader × List Text) :=
  ss.filterMap fun st => st.service?.map fun h => (h, st.lines)

/-- The same lines in each section, and the same services. -/
structure SameContent (ss ss' : List Stretch) : Prop where
  lines : ∀ s, linesUnder s ss = linesUnder s ss'
  services : servicesOf ss = servicesOf ss'

/-! ## Items of stretches -/

/-- Lines as they stand in an open section. -/
def below (current : Option Section) (lines : List Text) : List Item :=
  match current with
  | some s => lines.map (.line s)
  | none => []

def Stretch.items (st : Stretch) : List Item :=
  (openSection st.heading).2 ++ below st.section? st.lines

/-- **The loop over the lines** gives the items of each stretch. -/
theorem itemsFrom_eq (current : Option Section) (lines : List Text) :
    itemsFrom current lines = below current (cutStretches lines).1 ++
      (cutStretches lines).2.flatMap Stretch.items := by
  -- The open section varies: below a heading the loop goes on with another one.
  induction lines generalizing current with
  | nil => cases current <;> rfl
  | cons line lines ih =>
    unfold itemsFrom cutStretches
    dsimp only
    by_cases hcomment : startsWith [';'] line = true
    · rw [if_pos hcomment, if_pos hcomment, ih]
    · rw [if_neg hcomment, if_neg hcomment]
      by_cases hheading : startsWith ['['] line = true
      · rw [if_pos hheading, if_pos hheading, ih]
        have hnothing : below current [] = [] := by cases current <;> rfl
        show _ = below current [] ++ ((openSection line).2 ++ _ ++ _)
        rw [hnothing, List.nil_append, List.append_assoc]
        rfl
      · rw [if_neg hheading, if_neg hheading]
        cases current with
        | none => exact ih none
        | some s =>
          show Item.line s line :: itemsFrom (some s) lines = _
          rw [ih]
          rfl

theorem itemsOf_eq (text : Text) : itemsOf text = (stretches text).flatMap Stretch.items :=
  itemsFrom_eq none (contentLines text)

/-- A heading that is known opens its block, and nothing is noted about it. -/
theorem openSection_snd (h : st.section?.isSome = true) :
    (openSection st.heading).2 = st.service?.toList.map Item.opened := by
  unfold Stretch.section? openSection at h
  unfold Stretch.service? openSection
  dsimp only at h ⊢
  cases hname : (headerName? st.heading).bind sectionOf? with
  | some s => rfl
  | none =>
    rw [hname] at h
    cases hservice : blockHeader? st.heading with
    | some header => rfl
    | none =>
      rw [hservice] at h
      dsimp only at h
      split at h <;> cases h

/-- A heading of any kind is no line. -/
theorem linesOf_openSection (s : Section) (heading : Text) :
    linesOf s (openSection heading).2 = [] := by
  unfold openSection
  dsimp only
  split
  · rfl
  · split
    · rfl
    · split <;> rfl

theorem linesOf_below (s : Section) (current : Option Section) (lines : List Text) :
    linesOf s (below current lines) = if current = some s then lines else [] := by
  cases current with
  | none => rfl
  | some t =>
    have hmap : linesOf s (lines.map (Item.line t)) =
        lines.filterMap fun line => if t = s then some line else none := List.filterMap_map
    show linesOf s (lines.map (Item.line t)) = _
    rw [hmap]
    by_cases e : t = s
    · simp [e]
    · simp [e]

/-- The lines of a section among the items are those under its headings. -/
theorem linesOf_items (s : Section) (ss : List Stretch) :
    linesOf s (ss.flatMap Stretch.items) = linesUnder s ss := by
  unfold linesUnder
  rw [linesOf, List.filterMap_flatMap]
  refine congrArg (fun f => ss.flatMap f) (funext fun st => ?_)
  show linesOf s ((openSection st.heading).2 ++ below st.section? st.lines) = _
  have happend : linesOf s ((openSection st.heading).2 ++ below st.section? st.lines) =
      linesOf s (openSection st.heading).2 ++ linesOf s (below st.section? st.lines) :=
    List.filterMap_append
  rw [happend, linesOf_openSection, List.nil_append, linesOf_below]

/-! ## Services and problems -/

/-- The service that an item opens. -/
def Item.opened? : Item → Option BlockHeader
  | .opened h => some h
  | _ => none

theorem opened?_below (current : Option Section) (lines : List Text) :
    (below current lines).filterMap Item.opened? = [] := by
  refine List.filterMap_eq_nil_iff.2 fun item hitem => ?_
  cases current with
  | none => cases hitem
  | some s =>
    obtain ⟨line, -, rfl⟩ := List.mem_map.1 hitem
    rfl

theorem opened?_items (h : Managed ss) :
    (ss.flatMap Stretch.items).filterMap Item.opened? = ss.filterMap Stretch.service? := by
  induction ss with
  | nil => rfl
  | cons st ss ih =>
    obtain ⟨hst, hss⟩ := List.forall_mem_cons.1 h
    rw [List.flatMap_cons, List.filterMap_append, ih hss, Stretch.items, openSection_snd hst,
      List.filterMap_append, opened?_below, List.append_nil, List.filterMap_cons]
    cases st.service? <;> rfl

theorem problemsOf_items (h : Managed ss) : problemsOf (ss.flatMap Stretch.items) = [] := by
  unfold problemsOf
  rw [List.filterMap_flatMap]
  refine List.flatMap_eq_nil_iff.2 fun st hst => List.filterMap_eq_nil_iff.2 fun item hitem => ?_
  rw [Stretch.items, openSection_snd (h st hst)] at hitem
  rcases List.mem_append.1 hitem with hitem | hitem
  · obtain ⟨header, -, rfl⟩ := List.mem_map.1 hitem
    rfl
  · cases hsection : st.section? with
    | none =>
      rw [hsection] at hitem
      cases hitem
    | some s =>
      rw [hsection] at hitem
      obtain ⟨line, -, rfl⟩ := List.mem_map.1 hitem
      rfl

/-- Blocks by key are the services that are opened, each by its first heading. -/
theorem blocksOf_eq (items : List Item) : blocksOf items =
    (distinctOn BlockHeader.key (items.filterMap Item.opened?)).map fun h => (h.key, h) := by
  -- From the right end, since the fold takes the last item last and keeps what is there.
  induction items using List.reverseRecOn with
  | nil => rfl
  | append_singleton items item ih =>
    have hstep : blocksOf (items ++ [item]) =
        match item with
        | .opened h => (blocksOf items).putNew h.key h
        | _ => blocksOf items := List.foldl_append
    rw [hstep, List.filterMap_append, distinctOn_append, List.map_append, ← ih]
    cases item with
    | line _ _ => exact (List.append_nil _).symm
    | problem _ => exact (List.append_nil _).symm
    | opened h =>
      have hkeys : Pairs.keys (blocksOf items) =
          distinct ((items.filterMap Item.opened?).map BlockHeader.key) := by
        rw [ih, ← map_distinctOn]
        simp [Pairs.keys]
      show Pairs.putNew h.key h (blocksOf items) = _ ++ List.map _ (List.filter _ [h])
      rw [Pairs.putNew, Pairs.has]
      by_cases hknown : h.key ∈ Pairs.keys (blocksOf items)
      · have helem : ((items.filterMap Item.opened?).map BlockHeader.key).elem h.key = true :=
          List.elem_iff.2 (mem_distinct.1 (hkeys ▸ hknown))
        rw [if_pos (Pairs.get?_isSome.2 hknown), List.filter_cons_of_neg (by rw [helem]; decide)]
        exact (List.append_nil _).symm
      · have helem : ((items.filterMap Item.opened?).map BlockHeader.key).elem h.key = false := by
          rw [← Bool.not_eq_true, List.elem_iff, ← mem_distinct, ← hkeys]
          exact hknown
        rw [if_neg (mt Pairs.get?_isSome.1 hknown), Pairs.put_eq_append hknown,
          List.filter_cons_of_pos (by rw [helem]; decide)]
        rfl

/-! ## The mapping -/

/-- A mapping depends on the lines of each section, the blocks and the problems of its items. -/
theorem ofItems_congr {xs ys : List Item} (hlines : ∀ s, linesOf s xs = linesOf s ys)
    (hblocks : blocksOf xs = blocksOf ys) (hproblems : problemsOf xs = problemsOf ys)
    (r : Resolver) (name : Option Text) : Config.ofItems r name xs = .ofItems r name ys := by
  have hentries : ∀ q, blockEntries r q xs = blockEntries r q ys := by
    intro q
    funext key h
    unfold blockEntries
    rw [hlines]
  unfold Config.ofItems
  simp only [hlines, hblocks, hproblems, hentries]

/-- **The layout of a mapping in lines** does not matter, problems included. -/
theorem ofLines_layout {a b : Text} (ha : Managed (stretches a)) (hb : Managed (stretches b))
    (h : SameContent (stretches a) (stretches b)) (r : Resolver) (name : Option Text) :
    Config.ofLines r name a = .ofLines r name b := by
  unfold Config.ofLines
  rw [itemsOf_eq, itemsOf_eq]
  refine ofItems_congr (fun s => ?_) ?_ ?_ r name
  · rw [linesOf_items, linesOf_items, h.lines]
  · rw [blocksOf_eq, blocksOf_eq, opened?_items ha, opened?_items hb]
    exact congrArg _ h.services
  · rw [problemsOf_items ha, problemsOf_items hb]

/-! ## Changes of the layout -/

/-- A block is opened by the headings of its service. -/
theorem section?_block {key : Text} :
    st.section? = some (.block key) ↔ ∃ h, st.service? = some h ∧ h.key = key := by
  have hnamed : ∀ name, sectionOf? name ≠ some (.block key) := by
    intro name
    unfold sectionOf?
    split_ifs <;> simp
  unfold Stretch.section? Stretch.service? openSection
  dsimp only
  cases hname : (headerName? st.heading).bind sectionOf? with
  | some s =>
    obtain ⟨name, -, hs⟩ := Option.bind_eq_some_iff.1 hname
    have hne : s ≠ .block key := fun e => hnamed name (e ▸ hs)
    simp [hne]
  | none =>
    cases blockHeader? st.heading with
    | some h => simp
    | none =>
      dsimp only
      split <;> simp

theorem linesUnder_block (key : Text) (ss : List Stretch) :
    linesUnder (.block key) ss =
      (blocksUnder ss).flatMap fun p => if p.1.key = key then p.2 else [] := by
  induction ss with
  | nil => rfl
  | cons st ss ih =>
    unfold linesUnder blocksUnder at ih ⊢
    rw [List.flatMap_cons, ih, List.filterMap_cons]
    simp only [section?_block]
    cases hservice : st.service? with
    | none => simp
    | some h => simp

theorem servicesOf_eq (ss : List Stretch) :
    servicesOf ss = distinctOn BlockHeader.key ((blocksUnder ss).map (·.1)) := by
  unfold servicesOf blocksUnder
  rw [List.map_filterMap]
  refine congrArg _ (List.filterMap_congr fun st _ => ?_)
  cases st.service? <;> rfl

namespace SameContent

/-- The same lines in the four sections, and the same blocks with the same lines. -/
theorem of_blocks
    (hown : ∀ s ∈ [Section.info, .params, .default, .mapping], linesUnder s ss = linesUnder s ss')
    (hblocks : blocksUnder ss = blocksUnder ss') : SameContent ss ss' where
  lines := fun s => by
    cases s with
    | block key => rw [linesUnder_block, linesUnder_block, hblocks]
    | info => exact hown _ (by decide)
    | params => exact hown _ (by decide)
    | default => exact hown _ (by decide)
    | mapping => exact hown _ (by decide)
  services := by rw [servicesOf_eq, servicesOf_eq, hblocks]

/-- Neighbours change places when they belong to different sections. -/
theorem swap {st st' : Stretch} (hne : st.section? ≠ st'.section?)
    (hservice : st.service? = none ∨ st'.service? = none) (ss ss' : List Stretch) :
    SameContent (ss ++ st :: st' :: ss') (ss ++ st' :: st :: ss') where
  lines := fun s => by
    simp only [linesUnder, List.flatMap_append, List.flatMap_cons]
    by_cases h : st.section? = some s
    · have h' : st'.section? ≠ some s := fun e => hne (h.trans e.symm)
      simp [h, h']
    · simp [h]
  services := by
    unfold servicesOf
    rcases hservice with h | h
    · simp only [List.filterMap_append, List.filterMap_cons, h]
    · simp only [List.filterMap_append, List.filterMap_cons, h]

/-- A stretch is cut in two below the same heading. -/
theorem split (heading : Text) (lines lines' : List Text) (ss ss' : List Stretch) :
    SameContent (ss ++ ⟨heading, lines ++ lines'⟩ :: ss')
      (ss ++ ⟨heading, lines⟩ :: ⟨heading, lines'⟩ :: ss') where
  lines := fun s => by
    simp only [linesUnder, List.flatMap_append, List.flatMap_cons, Stretch.section?]
    by_cases h : (openSection heading).1 = some s
    · simp [h]
    · simp [h]
  services := by
    have hone : servicesOf (⟨heading, lines⟩ :: ⟨heading, lines'⟩ :: ss') =
        servicesOf (⟨heading, lines ++ lines'⟩ :: ss') := by
      unfold servicesOf
      simp only [List.filterMap_cons, Stretch.service?]
      split
      · rfl
      · simp [distinctOn, List.filter_filter]
    unfold servicesOf at hone ⊢
    rw [List.filterMap_append, List.filterMap_append, ← distinctOn_append_right, ← hone,
      distinctOn_append_right]

end SameContent

/-- Comments do not count. -/
theorem cutStretches_insert {comment : Text} (h : startsWith [';'] comment = true)
    (lines lines' : List Text) :
    cutStretches (lines ++ comment :: lines') = cutStretches (lines ++ lines') := by
  induction lines with
  | nil => exact if_pos h
  | cons line lines ih =>
    rw [List.cons_append, cutStretches, ih]
    rfl

theorem contentLines_append {c : Char} (hc : isLineBreak c = true) (a b : Text) :
    contentLines (a ++ c :: b) = contentLines a ++ contentLines b := by
  unfold contentLines
  rw [cutsAt_append hc, List.map_append, List.filter_append]

theorem contentLines_line {line : Text} (h : ∀ c ∈ line, isLineBreak c = false) :
    contentLines line = if trim line = [] then [] else [trim line] := by
  unfold contentLines
  rw [cutsAt_of_forall h]
  by_cases hblank : trim line = []
  · simp [hblank]
  · simp [hblank]

/-- A blank at either end says nothing. -/
theorem contentLines_blank {c : Char} (hc : isBlank c = true) (s : Text) :
    contentLines (c :: s) = contentLines s ∧ contentLines (s ++ [c]) = contentLines s := by
  cases hbreak : isLineBreak c with
  | true =>
    have hends := fun a b => contentLines_append hbreak a b
    exact ⟨hends [] s, (hends s []).trans (List.append_nil _)⟩
  | false =>
    -- Only the first or the last line is longer, so the text is cut at any break that it has.
    induction h : s.length using Nat.strong_induction_on generalizing s with
    | _ n ih =>
      have hblank : ∀ d ∈ [c], isBlank d = true := List.forall_mem_singleton.2 hc
      by_cases hs : ∀ d ∈ s, isLineBreak d = false
      · have hfirst : ∀ d ∈ c :: s, isLineBreak d = false := List.forall_mem_cons.2 ⟨hbreak, hs⟩
        have hlast : ∀ d ∈ s ++ [c], isLineBreak d = false :=
          List.forall_mem_append.2 ⟨hs, List.forall_mem_singleton.2 hbreak⟩
        have htrimFirst : trim (c :: s) = trim s := by
          simpa using trim_surrounded hblank s (List.forall_mem_nil _)
        have htrimLast : trim (s ++ [c]) = trim s := by
          simpa using trim_surrounded (List.forall_mem_nil _) s hblank
        rw [contentLines_line hs, contentLines_line hfirst, contentLines_line hlast, htrimFirst,
          htrimLast]
        exact ⟨rfl, rfl⟩
      · obtain ⟨d, hd, hdbreak⟩ : ∃ d ∈ s, isLineBreak d = true := by simpa using hs
        obtain ⟨a, b, rfl⟩ := List.append_of_mem hd
        rw [List.length_append, List.length_cons] at h
        obtain ⟨ha, -⟩ := ih a.length (by omega) a rfl
        obtain ⟨-, hb⟩ := ih b.length (by omega) b rfl
        constructor
        · rw [← List.cons_append, contentLines_append hdbreak, contentLines_append hdbreak, ha]
        · rw [List.append_assoc, List.cons_append, contentLines_append hdbreak,
            contentLines_append hdbreak, hb]

theorem contentLines_trim (s : Text) : contentLines (trim s) = contentLines s := by
  obtain ⟨a, b, ha, hb, hs⟩ := exists_eq_trimOf isBlank s
  have hfirst : ∀ (a t : Text), (∀ c ∈ a, isBlank c = true) →
      contentLines (a ++ t) = contentLines t := by
    intro a t h
    induction a with
    | nil => rfl
    | cons c a ih =>
      exact (contentLines_blank (h c List.mem_cons_self) _).1.trans
        (ih fun d hd => h d (List.mem_cons_of_mem c hd))
  have hlast : ∀ (b t : Text), (∀ c ∈ b, isBlank c = true) →
      contentLines (t ++ b) = contentLines t := by
    intro b t h
    induction b generalizing t with
    | nil => rw [List.append_nil]
    | cons c b ih =>
      rw [List.append_cons, ih (t ++ [c]) fun d hd => h d (List.mem_cons_of_mem c hd)]
      exact (contentLines_blank (h c List.mem_cons_self) t).2
  conv_rhs => rw [hs, hlast b _ hb, hfirst a _ ha]
  rfl

/-- A blank line or a comment may stand between any two lines. -/
theorem stretches_insert {line : Text} (h : ∀ c ∈ line, isLineBreak c = false)
    (hline : trim line = [] ∨ startsWith [';'] (trim line) = true) (a b : Text) :
    stretches (a ++ '\n' :: (line ++ '\n' :: b)) = stretches (a ++ '\n' :: b) := by
  have hbreak : isLineBreak '\n' = true := by decide
  unfold stretches
  rw [contentLines_append hbreak, contentLines_append hbreak, contentLines_append hbreak,
    contentLines_line h]
  rcases hline with hblank | hcomment
  · rw [if_pos hblank]
    rfl
  · have hne : trim line ≠ [] := fun hnil => by rw [hnil] at hcomment; cases hcomment
    rw [if_neg hne]
    exact congrArg Prod.snd (cutStretches_insert hcomment _ _)

/-- Blanks may stand around any line. -/
theorem stretches_indent {line before after : Text} (h : ∀ c ∈ line, isLineBreak c = false)
    (hbefore : ∀ c ∈ before, isBlank c = true ∧ isLineBreak c = false)
    (hafter : ∀ c ∈ after, isBlank c = true ∧ isLineBreak c = false) (a b : Text) :
    stretches (a ++ '\n' :: ((before ++ line ++ after) ++ '\n' :: b)) =
      stretches (a ++ '\n' :: (line ++ '\n' :: b)) := by
  have hbreak : isLineBreak '\n' = true := by decide
  have hline : ∀ c ∈ before ++ line ++ after, isLineBreak c = false := by
    intro c hc
    rcases List.mem_append.1 hc with hc | hc
    · rcases List.mem_append.1 hc with hc | hc
      · exact (hbefore c hc).2
      · exact h c hc
    · exact (hafter c hc).2
  have htrim : trim (before ++ line ++ after) = trim line :=
    trim_surrounded (fun c hc => (hbefore c hc).1) line fun c hc => (hafter c hc).1
  unfold stretches
  simp only [contentLines_append hbreak, contentLines_line h, contentLines_line hline, htrim]

/-- Sections one after another. -/
def plainLayout : Text :=
  "[info]\nquerier = xpath\n[params]\np = 1\n[mapping]\n/a = dcterms:title\n" ++
    "/b = dcterms:creator\n= x\n[x:y]\n/c = dcterms:source"

/-- The same lines below other headings, between comments and blank lines. -/
def otherLayout : Text :=
  "; maps\n  [maps]\n\t/a = dcterms:title  \n\n[x:y]\n/c = dcterms:source\n[params]\np = 1\n" ++
    "[mapping]\n; more\n /b = dcterms:creator\n= x\n[info]\n\nquerier = xpath\n"

theorem ofLines_layout_other :
    Config.ofLines ⟨⟨[], [], [], []⟩, false, []⟩ (some "m") plainLayout =
      .ofLines ⟨⟨[], [], [], []⟩, false, []⟩ (some "m") otherLayout := by
  have hplain : Managed (stretches plainLayout) := by decide +kernel
  have hother : Managed (stretches otherLayout) := by decide +kernel
  have hsame : SameContent (stretches plainLayout) (stretches otherLayout) :=
    .of_blocks (by decide +kernel) (by decide +kernel)
  exact ofLines_layout hplain hother hsame _ _

end Crosswalk
