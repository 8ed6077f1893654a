import Crosswalk.Host.Bundled
import Crosswalk.Proofs.Filter.Arguments
import Crosswalk.Proofs.Filter.Overlook
import Crosswalk.Proofs.Template.Inert
import Crosswalk.Proofs.Template.Patterns

/-!
# A query piped through a chain

`{{ implode('', '{{path}}')|chain }}` gives what `chain` makes of the text that the query finds. The
quotes of that text stand as words while the chain runs, and come back in the result:

    evaluate = runSteps (hideQuotes found) chain, its first text with quotes shown
                                                                        (evaluate_hidden)
    evaluate = runSteps found chain, its first text                     (evaluate_piped)

The second one needs a chain that overlooks the words. The words that a chain takes apart or writes
in small letters stay (`evaluate_lowered`).
-/

namespace Crosswalk.Template

open Text
open Crosswalk.Filter (runSteps splitChain Scope)

/-! ## The pattern -/

/-- What stands in the call before its second argument, and after it. -/
def callOpen : Text := "implode('', '"

def callClose : Text := "')"

/-- The filter that gives `s` as it is, when no single quote is in it. -/
def pipedCall (s : Text) : Text := callOpen ++ s ++ callClose

def pipedChain (s chain : Text) : Text := pipedCall s ++ '|' :: chain

def pipedPattern (path chain : Text) : Text := reference (pipedChain (braced path) chain)

/-- One query, in one expression. -/
def pipedModifier (path chain : Text) : Modifier :=
  { Modifier.empty with
    pattern := some (pipedPattern path chain)
    replace := [braced path]
    filters := [pipedPattern path chain]
    hasReplace := [true] }

/-- A path and a chain that end where their braces do. -/
structure Pipes (path chain : Text) : Prop where
  proper : ProperPath path
  opens : contains openMark chain = false
  closes : contains spacedClose chain = false
  unmasked : Unmasked path ∧ Unmasked chain

theorem quote_mem_pipedChain (s chain : Text) : '\'' ∈ pipedChain s chain :=
  List.mem_append_left _ (List.mem_append_right _ List.mem_cons_self)

/-! ## References as patterns -/

theorem trim_reference (name : Text) : trim (reference name) = reference name := by
  refine Trimmed.trimOf_eq ⟨fun c hc => ?_, fun c hc => ?_⟩
  · rw [← Option.some.inj hc]
    decide
  · have hlast : (reference name).getLast? = some '}' := by
      simp [reference, spacedClose, List.getLast?_append]
    rw [hlast] at hc
    rw [← Option.some.inj hc]
    decide

theorem parts?_reference (name : Text) :
    parts? (reference name) = some ([], reference name, []) := by
  have hfind : Text.find? openMark (reference name) = some 0 := by
    unfold Text.find?
    rw [show reference name = openMark ++ (' ' :: (name ++ spacedClose)) by
      simp [reference, spacedOpen, openMark], cut?_append]
    rfl
  have hlast : cutLastMark? closeMark (reference name) =
      some (spacedOpen ++ name ++ [' '], []) := by
    have hclose := cutLastMark?_append (spacedOpen ++ name ++ [' '])
      (cutLastMark?_close (s := []) rfl)
    rw [List.append_nil, List.append_nil] at hclose
    rw [← hclose]
    simp [reference, spacedClose, closeMark]
  have hlen : (spacedOpen ++ name ++ [' ']).length + 2 = (reference name).length := by
    simp [reference, spacedClose, Nat.add_assoc]
  unfold parts?
  rw [hfind, hlast]
  simp only [Option.bind_eq_bind, Option.bind_some]
  rw [if_neg (Nat.not_lt_zero _), hlen, List.take_length]
  rfl

/-- Whatever stands between the braces is the template. -/
theorem compile_reference (name : Text) :
    compile (reference name) = compileTemplate [] (reference name) [] := by
  have hne : reference name ≠ [] := by simp [reference, spacedOpen]
  unfold compile
  simp only [trim_reference, if_neg hne, show isQuoted (reference name) = false from rfl,
    parts?_reference]
  cases hr : reservedTokens.elem (reference name) with
  | false => rfl
  | true => exact compile_reserved (List.elem_iff.1 hr) (parts?_reference name)

/-- A reference in which no braces open or close is one expression. -/
theorem expressions_reference {name : Text} (hne : name ≠ [])
    (hopens : contains openMark name = false) (hcloses : contains spacedClose name = false) :
    expressions [] (reference name) = [reference name] := by
  have hhead : ∀ w : Text, ' ' ∉ w.tail → ∀ c ∈ (spacedClose ++ []).head?, c ∉ w.tail :=
    fun w hw c hc => Option.some.inj hc ▸ hw
  have hlength : chainLength? (name ++ (spacedClose ++ [])) = some name.length :=
    chainLength?_quiet (quiet_of_not_contains hcloses (hhead _ (by decide)))
      ((quiet_of_not_contains hopens (hhead _ (by decide))).mono fun _ => startsWith_spacedOpen)
  have hform : expressionForm (reference name ++ []) =
      some (reference name, (reference name).length) := by
    have hafter : after? spacedOpen (reference name ++ []) = some (name ++ (spacedClose ++ [])) :=
      after?_eq_some.2 (by simp only [reference, List.append_assoc])
    refine formOf_append ?_
    rw [expressionLength?, hafter, Option.bind_some, hlength, Option.bind_some, length_reference]
    exact if_neg (mt List.length_eq_zero_iff.1 hne)
  have hpieces : pieces expressionForm (reference name ++ []) =
      [.found (reference name) (reference name)] :=
    pieces_found (List.cons_ne_nil _ _) hform
  rw [List.append_nil] at hpieces
  unfold expressions
  rw [hpieces]
  rfl

/-! ## What is read from the pattern -/

theorem reference_pipedChain (s chain : Text) : reference (pipedChain s chain) =
    spacedOpen ++ callOpen ++ (s ++ (callClose ++ '|' :: (chain ++ spacedClose))) := by
  simp only [reference, pipedChain, pipedCall, List.append_assoc, List.cons_append]

theorem reference_pipedChain_not_reserved (s chain : Text) :
    reservedTokens.elem (reference (pipedChain s chain)) = false := by
  refine Bool.eq_false_iff.2 fun h => ?_
  obtain ⟨name, hname, he⟩ := reserved_eq (List.elem_iff.1 h)
  have hquote := hname.word _ (reference_injective he ▸ quote_mem_pipedChain s chain)
  exact absurd hquote (by decide)

section

variable {path chain : Text} (h : Pipes path chain)
include h

/-- No braces open after the argument. -/
theorem Pipes.quiet_tail (rest : Text) :
    Quiet (startsWith openMark) (callClose ++ '|' :: (chain ++ spacedClose)) rest := by
  refine quiet_open ?_ rest
  rw [List.append_assoc, List.cons_append, List.append_assoc]
  exact not_contains_append_cons (List.cons_ne_nil _ _) (by decide) (by decide)
    (not_contains_append_cons (List.cons_ne_nil _ _) (by decide) h.opens (by decide))

theorem Pipes.unmasked_pattern : Unmasked (pipedPattern path chain) := by
  have hword : ∀ w ∈ stems, contains w path = false → contains w chain = false →
      contains w (pipedPattern path chain) = false := by
    intro w hw hpath hchain
    have hmarks : ∀ w ∈ stems, w ≠ [] ∧ '{' ∉ w ∧ '}' ∉ w ∧ '|' ∉ w ∧ ' ' ∉ w ∧
        contains w (spacedOpen ++ callOpen ++ ['{']) = false ∧
        contains w ('}' :: callClose) = false ∧ contains w ['}', '}'] = false := by decide
    obtain ⟨hne, hopen, hclose, hbar, hblank, hfirst, hcall, hlast⟩ := hmarks w hw
    have hpattern : pipedPattern path chain = spacedOpen ++ callOpen ++ ['{'] ++
        '{' :: (path ++ '}' :: ('}' :: callClose ++ '|' :: (chain ++ ' ' :: ['}', '}']))) := by
      rw [pipedPattern, reference_pipedChain]
      simp [braced, spacedClose]
    rw [hpattern]
    exact not_contains_append_cons hne hopen hfirst (not_contains_append_cons hne hclose hpath
      (not_contains_append_cons hne hbar hcall (not_contains_append_cons hne hblank hchain hlast)))
  exact ⟨hword _ (by decide) h.unmasked.1.1 h.unmasked.2.1,
    hword _ (by decide) h.unmasked.1.2 h.unmasked.2.2⟩

/-- The only query is the one of the argument. -/
theorem Pipes.readings_replacement :
    readings replacementForm (pipedPattern path chain) = [braced path] := by
  have hopen : Reads replacementForm (spacedOpen ++ callOpen) [] := by
    refine reads_quiet fun rest => ⟨?_, ?_⟩
    · refine reads_replacement_blank (s := callOpen ++ rest) (reservedLength?_eq_none ?_)
      intro token htoken
      simp only [reservedTokens, List.mem_cons, List.not_mem_nil, or_false] at htoken
      rcases htoken with rfl | rfl | rfl <;> rfl
    · exact (quiet_open (s := ['{', ' '] ++ callOpen) (by decide) rest).mono opens_replacementForm
  have hquery : Reads replacementForm (braced path) [braced path] :=
    reads_replacement (t := .query path) h.proper
  have htail : Reads replacementForm (callClose ++ '|' :: (chain ++ spacedClose)) [] :=
    reads_of_quiet opens_replacementForm h.quiet_tail
  rw [pipedPattern, reference_pipedChain]
  exact (hopen.append (hquery.append htail)).readings

/-- What stands for the query stands for it in the call only. -/
theorem Pipes.replaceAll_query (w : Text) :
    replaceAll (braced path) w (pipedPattern path chain) = reference (pipedChain w chain) := by
  have hne := braced_ne_nil path
  have hopen : Replaces (braced path) w (spacedOpen ++ callOpen) (spacedOpen ++ callOpen) := by
    refine fun rest => replaceAll_quiet hne ⟨Bool.eq_false_iff.2 fun hstart => ?_, ?_⟩
    · -- The path does not start with the blank of an expression.
      obtain ⟨c, s, hpath, hblank⟩ := h.proper.first_eq
      rw [hpath] at hstart
      obtain ⟨rfl, -⟩ := startsWith_cons.1 (startsWith_cons.1 (startsWith_cons.1 hstart).2).2
      exact absurd hblank (by decide)
    · exact (quiet_open (s := ['{', ' '] ++ callOpen) (by decide) rest).braced path
  have htail : Replaces (braced path) w (callClose ++ '|' :: (chain ++ spacedClose))
      (callClose ++ '|' :: (chain ++ spacedClose)) :=
    fun rest => replaceAll_quiet hne ((h.quiet_tail rest).braced path)
  rw [pipedPattern, reference_pipedChain, reference_pipedChain]
  exact (hopen.append ((replaces_self hne).append htail)).replaceAll hne

theorem Pipes.queriesIn : queriesIn (pipedPattern path chain) = [(braced path, queryMask 0)] := by
  unfold Template.queriesIn
  rw [h.readings_replacement]
  rfl

/-- Behind its mask the query is no brace to the expression. -/
theorem Pipes.hide_query :
    (Template.queriesIn (pipedPattern path chain)).hide (pipedPattern path chain) =
      reference (pipedChain (queryMask 0) chain) := by
  rw [h.queriesIn]
  exact h.replaceAll_query (queryMask 0)

theorem Pipes.referencesIn : referencesIn (pipedPattern path chain) = [] := by
  have hopen : Reads referenceForm (spacedOpen ++ callOpen) [] :=
    reads_quiet fun rest => ⟨rfl,
      (quiet_open (s := ['{', ' '] ++ callOpen) (by decide) rest).mono opens_referenceForm⟩
  have hmask : Reads referenceForm (queryMask 0) [] :=
    reads_of_quiet opens_referenceForm (isMask_query 0).solid.bare.quiet_open
  have htail : Reads referenceForm (callClose ++ '|' :: (chain ++ spacedClose)) [] :=
    reads_of_quiet opens_referenceForm h.quiet_tail
  have hnone : readings referenceForm (reference (pipedChain (queryMask 0) chain)) = [] := by
    rw [reference_pipedChain]
    exact (hopen.append (hmask.append htail)).readings
  unfold Template.referencesIn
  rw [h.hide_query, hnone]
  rfl

/-- The one expression is revealed with its query. -/
theorem Pipes.filtersOf : filtersOf (Template.queriesIn (pipedPattern path chain)) []
    (reference (pipedChain (queryMask 0) chain)) = [(pipedPattern path chain, true)] := by
  have hu := h.unmasked_pattern
  have hwritten : (Template.queriesIn (pipedPattern path chain)).reveal
      (reference (pipedChain (queryMask 0) chain)) = pipedPattern path chain := by
    rw [← h.hide_query]
    exact (veiled_queriesIn hu).reveal (hides_queriesIn hu) (nodup_masksFor queryWord _)
      (unnumbered_of_not_contains hu.2)
  have hdiffer : pipedPattern path chain ≠ reference (pipedChain (queryMask 0) chain) := by
    intro he
    have hchain := List.append_cancel_right (reference_injective he)
    have hquery := List.append_cancel_left (List.append_cancel_right hchain)
    exact absurd (List.cons.inj hquery).1 (by decide)
  have hrevealed : revealed (Template.queriesIn (pipedPattern path chain)) []
      (reference (pipedChain (queryMask 0) chain)) = (pipedPattern path chain, true) := by
    have hshown : ∀ e, Masks.reveal [] e = e := fun _ => rfl
    unfold revealed
    simp only [hshown, hwritten, bne_iff_ne.2 hdiffer]
  have hexpressions : expressions [] (reference (pipedChain (queryMask 0) chain)) =
      [reference (pipedChain (queryMask 0) chain)] :=
    expressions_reference (List.ne_nil_of_mem (quote_mem_pipedChain (queryMask 0) chain))
      (not_contains_append_cons (List.cons_ne_nil _ _) (by decide) (by decide) h.opens)
      (not_contains_append_cons (List.cons_ne_nil _ _) (by decide) (by decide) h.closes)
  unfold Template.filtersOf
  rw [hexpressions, List.foldl_cons, hrevealed]
  exact if_neg (Bool.eq_false_iff.1 (reference_pipedChain_not_reserved _ _))

theorem Pipes.compile_eq : compile (pipedPattern path chain) = pipedModifier path chain := by
  have hfilters : Template.filtersOf (Template.queriesIn (pipedPattern path chain))
      (Template.referencesIn (pipedPattern path chain)) (maskedText (pipedPattern path chain)) =
      [(pipedPattern path chain, true)] := by
    rw [maskedText, h.referencesIn, h.hide_query]
    exact h.filtersOf
  rw [pipedPattern, compile_reference, ← pipedPattern, compileTemplate_eq, hfilters,
    h.readings_replacement]
  rfl

/-! ## What the pattern gives -/

omit h in
/-- The template has no static text. -/
theorem staticText_pipedModifier : (pipedModifier path chain).staticText = [] := by
  have hself : replaceAll (pipedPattern path chain) [] (pipedPattern path chain) = [] :=
    (replaces_self (List.cons_ne_nil _ _)).replaceAll (List.cons_ne_nil _ _)
  have hrest : ∀ tokens : List Text, (∀ t ∈ tokens, t ≠ []) →
      tokens.foldl (fun s token => replaceAll token [] s) [] = [] := by
    intro tokens htokens
    induction tokens with
    | nil => rfl
    | cons t tokens ih =>
      obtain ⟨ht, htokens⟩ := List.forall_mem_cons.1 htokens
      rw [List.foldl_cons, replaceAll_nil ht, ih htokens]
  unfold Modifier.staticText pipedModifier
  simp only [List.cons_append, List.nil_append, List.foldl_cons, Option.getD_some, hself]
  rw [replaceAll_nil (braced_ne_nil path)]
  exact hrest _ (by decide)

omit h in
theorem saysMore_pipedModifier (s : Text) : saysMore (pipedModifier path chain) s = (s != []) := by
  unfold saysMore
  rw [staticText_pipedModifier]
  exact Bool.and_true _

/-- The query is filled with what is found, and by no variable. -/
theorem Pipes.queriesOf (vars : Pairs Text Text) (find : Text → Text) :
    queriesOf (pipedModifier path chain) vars (some find) = [(braced path, find path)] := by
  have hreserved : reservedTokens.elem (braced path) = false := by
    refine Bool.eq_false_iff.2 fun hr => ?_
    obtain ⟨name, -, he⟩ := reserved_eq (List.elem_iff.1 hr)
    exact h.proper.braced_ne_reference name he
  show [(braced path, (Pairs.get? (braced path) (references vars)).getD
    (if reservedTokens.elem (braced path) then [] else find (inner 2 (braced path))))] = _
  rw [get?_query_references h.proper, hreserved, inner_braced]
  rfl

omit h in
/-- The pattern names no variable, so that it is evaluated. -/
theorem chainsOf_pipedModifier {vars : Pairs Text Text}
    (hv : ∀ name ∈ Pairs.keys vars, name.any isQuoteMark = false) :
    chainsOf (pipedModifier path chain) (references vars) = [(pipedPattern path chain, true)] := by
  have hunknown : Pairs.get? (pipedPattern path chain) (references vars) = none := by
    rw [pipedPattern, get?_references]
    refine Pairs.get?_eq_none.2 fun hname => ?_
    have hquote := List.any_eq_false.1 (hv _ hname) _ (quote_mem_pipedChain _ _)
    exact hquote rfl
  have hkept : (!Pairs.has (pipedPattern path chain) (references vars)) = true := by
    unfold Pairs.has
    rw [hunknown]
    rfl
  unfold chainsOf pipedModifier
  simp only [List.cons_ne_nil, if_false, List.zip_cons_cons, List.zip_nil_left, List.filter_cons,
    hkept, if_true, List.filter_nil]

/-- The filling is the result of the expression, once its quotes are shown and the references in it
filled. -/
theorem Pipes.fillAll [Host] {scope : Scope}
    (hv : ∀ name ∈ Pairs.keys scope.vars, name.any isQuoteMark = false) (find : Text → Text) :
    fillAll (pipedModifier path chain) scope (some find) =
      (Filter.evaluate scope (pipedChain (hideQuotes (find path)) chain)).map fun r =>
        fill (references scope.vars) (showQuotes r) := by
  have hqueries := h.queriesOf scope.vars find
  have hpattern : (pipedModifier path chain).pattern.getD [] = pipedPattern path chain := rfl
  have hfill : fill [(braced path, hideQuotes (find path))] (pipedPattern path chain) =
      reference (pipedChain (hideQuotes (find path)) chain) := h.replaceAll_query _
  have hresult : ∀ e r : Text, e ≠ [] → fill [(e, r)] e = r := fun e r he =>
    (replaces_self he).replaceAll he
  have hevaluated : evaluated scope [(braced path, hideQuotes (find path))]
      [(pipedPattern path chain, true)] =
      (Filter.evaluate scope (pipedChain (hideQuotes (find path)) chain)).map fun r =>
        [(reference (pipedChain (hideQuotes (find path)) chain), r)] := by
    unfold evaluated
    rw [List.foldlM_cons]
    simp only [if_true, hfill, inner_reference]
    cases Filter.evaluate scope (pipedChain (hideQuotes (find path)) chain) <;> rfl
  unfold Template.queriesOf at hqueries
  unfold Template.fillAll
  simp only [hqueries, chainsOf_pipedModifier hv, hpattern, List.map_cons, List.map_nil, hfill,
    hevaluated]
  cases Filter.evaluate scope (pipedChain (hideQuotes (find path)) chain) with
  | error e => rfl
  | ok r =>
    exact congrArg (fun s => Except.ok (fill _ (showQuotes s))) (hresult _ r (List.cons_ne_nil _ _))

end

/-! ## Evaluation -/

section

variable {scope : Scope} (hv : ∀ name ∈ Pairs.keys scope.vars, name.any isQuoteMark = false)
include hv

/-- The call gives its text to the chain. -/
theorem evaluate_pipedChain [Host] {s : Text} (hs : '\'' ∉ s) (chain : Text) :
    Filter.evaluate scope (pipedChain s chain) =
      (runSteps scope (.text s) (splitChain chain)).map Datum.first := by
  let mark : Filter.Argument :=
    ⟨[], '\'', [], [], List.forall_mem_nil _, rfl, List.not_mem_nil, List.forall_mem_nil _⟩
  let text : Filter.Argument :=
    ⟨[' '], '\'', s, [], forall_mem_of_all (by decide), rfl, hs, List.forall_mem_nil _⟩
  have hcall : pipedCall s = Filter.callText "implode" (Filter.listText [mark, text]) := by
    have hopen : callOpen = ("implode" : Text) ++ '(' :: mark.written ++ [',', ' ', '\''] := by
      decide
    rw [pipedCall, hopen, Filter.callText, Filter.listText, List.map_cons, List.map_singleton,
      joinWith_cons _ _ (List.cons_ne_nil _ _), joinWith_singleton]
    simp only [Filter.Argument.written, Filter.Argument.literal, text, callClose, List.append_assoc,
      List.cons_append, List.nil_append, List.append_nil]
    rfl
  have hclosed : Filter.Closed (pipedCall s) := by
    rw [hcall]
    exact (Filter.passes_callText (forall_mem_of_all (by decide))
      (Filter.Argument.passes_listText _ rfl)).2
  rw [Filter.evaluate, pipedChain, Filter.splitChain_append hclosed, Filter.runSteps_append, hcall,
    Filter.runSteps_implode hv]
  show (runSteps scope (.text (joinWith [] [s])) (splitChain chain)).map Datum.first = _
  rw [joinWith_singleton]

end

/-- A text in which no braces open holds no reference. -/
theorem fill_references {vars : Pairs Text Text} {s : Text} (hs : contains openMark s = false) :
    fill (references vars) s = s := by
  refine fill_of_not_contains fun p hp => Bool.eq_false_iff.2 fun hc => ?_
  obtain ⟨q, -, rfl⟩ := List.mem_map.1 hp
  have hopen : openMark <:+: reference q.1 := ⟨[], ' ' :: (q.1 ++ spacedClose), rfl⟩
  rw [contains_iff_isInfix.2 (hopen.trans (contains_iff_isInfix.1 hc))] at hs
  cases hs

section

variable {path chain : Text} (h : Pipes path chain) {subject : Subject} {context : Context}
  (hv : ∀ name ∈ Pairs.keys (context.scope subject).vars, name.any isQuoteMark = false)
  (find : Text → Text) (asXml : Bool)
include h hv

/-- The pattern runs its chain on the text whose quotes are hidden. -/
theorem evaluate_hidden [Host] :
    (compile (pipedPattern path chain)).evaluate subject context (some find) asXml =
      (runSteps (context.scope subject) (.text (hideQuotes (find path))) (splitChain chain)).map
        fun d =>
          nonEmpty (fill (references (context.scope subject).vars) (showQuotes d.first)) := by
  have hxml : pipedPattern path chain ≠ Modifier.xmlPattern := by
    intro he
    have hquote := reference_injective he ▸ quote_mem_pipedChain (braced path) chain
    exact absurd hquote (by decide)
  have hwrap : ∀ s, (pipedModifier path chain).wrap s = s := List.append_nil
  have hgiven : ∀ s : Text, (if (s != []) = true then some s else none) = nonEmpty s := fun s => by
    cases s <;> rfl
  rw [h.compile_eq, evaluate_template ⟨rfl, rfl⟩ rfl (List.cons_ne_nil _ _) (.inl hxml),
    h.fillAll hv, evaluate_pipedChain hv (not_mem_hideQuotes rfl _)]
  simp only [saysMore_pipedModifier, hwrap]
  cases runSteps (context.scope subject) (.text (hideQuotes (find path))) (splitChain chain) with
  | error e => rfl
  | ok d => exact congrArg Except.ok (hgiven _)

/-- **A piped query** gives the first text of its chain run on what is found, with the quotes hidden
before and shown after. When the chain overlooks hidden quotes, and its result spells neither a word
for them nor a reference, it gives the first text of the chain run on what is found itself. -/
theorem evaluate_piped [Host] :
    (compile (pipedPattern path chain)).evaluate subject context (some find) asXml =
      (runSteps (context.scope subject) (.text (hideQuotes (find path))) (splitChain chain)).map
        (fun d => nonEmpty (fill (references (context.scope subject).vars) (showQuotes d.first))) ∧
    ((find path).any isQuoteMark = false ∨
        Filter.OverlooksAll (context.scope subject) (.text (find path)) (splitChain chain) →
      (∀ d, runSteps (context.scope subject) (.text (find path)) (splitChain chain) = .ok d →
        Unspelled d.first ∧ contains openMark d.first = false) →
      (compile (pipedPattern path chain)).evaluate subject context (some find) asXml =
        (runSteps (context.scope subject) (.text (find path)) (splitChain chain)).map
          fun d => nonEmpty d.first) := by
  refine ⟨evaluate_hidden h hv find asXml, fun hchain hresult => ?_⟩
  have hagree : Filter.Agree
      (runSteps (context.scope subject) (.text (hideQuotes (find path))) (splitChain chain))
      (runSteps (context.scope subject) (.text (find path)) (splitChain chain)) := by
    rcases hchain with hquotes | hall
    · rw [hideQuotes_of_no_quotes hquotes]
      exact Filter.agree_self _
    · exact hall.agree (.text (veiled_hideQuotes _))
  rw [evaluate_hidden h hv find asXml]
  cases hhidden : runSteps (context.scope subject) (.text (hideQuotes (find path)))
      (splitChain chain) <;>
    cases hplain : runSteps (context.scope subject) (.text (find path)) (splitChain chain) <;>
    rw [hhidden, hplain] at hagree <;> cases hagree
  · rfl
  · next v w hveils =>
    obtain ⟨hunspelled, hopens⟩ := hresult w hplain
    refine congrArg (fun s => Except.ok (nonEmpty s)) ?_
    rw [hveils.first.showQuotes hunspelled]
    exact fill_references hopens

end

/-- The part before the first comma, in capitals. -/
def capitalsChain : Text := "split(', ')|first|upper"

/-- What every query finds in a title with a quote. -/
def quotedTitle : Text → Text := fun _ => "It's, so"

theorem evaluate_piped_capitals :
    (compile (pipedPattern "a" capitalsChain)).evaluate .none ⟨[], []⟩ (some quotedTitle) false =
      .ok (some "IT'S") := by
  have hpipes : Pipes "a" capitalsChain := ⟨by decide, by decide, by decide, by decide⟩
  have hsteps : splitChain capitalsChain = [("split(', ')" : Text), "first", "upper"] := by decide
  have hall : Filter.OverlooksAll (Context.scope ⟨[], []⟩ .none) (.text (quotedTitle "a"))
      (splitChain capitalsChain) := by
    have hdelimiter : Filter.Arguments.at?
        ⟨(Filter.readCall "split(', ')").2, Context.scope ⟨[], []⟩ .none⟩ 0 = some ", " := by decide
    rw [hsteps]
    refine ⟨.split (by decide) hdelimiter (by decide) (forall_mem_of_all (by decide)),
      fun w hw => ?_⟩
    have hsplit : Filter.applyStep (Context.scope ⟨[], []⟩ .none) (.text (quotedTitle "a"))
        "split(', ')" = .ok (.list ["It's", "so"]) := by decide
    obtain rfl : w = .list ["It's", "so"] := Except.ok.inj (hw.symm.trans hsplit)
    exact ⟨.part rfl (by decide), fun _ _ => ⟨.blind (by decide), fun _ _ => trivial⟩⟩
  have hrun : runSteps (Context.scope ⟨[], []⟩ .none) (.text (quotedTitle "a"))
      (splitChain capitalsChain) = .ok (.text "IT'S") := by decide
  refine Eq.trans ((evaluate_piped hpipes (by decide) quotedTitle false).2 (.inr hall)
    fun d hd => ?_) ?_
  · obtain rfl : d = .text "IT'S" := Except.ok.inj (hd.symm.trans hrun)
    exact ⟨by decide, by decide⟩
  · rw [hrun]
    rfl

/-- In small letters the word for a quote is not found again. -/
theorem evaluate_lowered :
    (compile (pipedPattern "a" "lower")).evaluate .none ⟨[], []⟩ (some fun _ => "It's") false =
        .ok (some "it__squote__s") ∧
      (runSteps (Context.scope ⟨[], []⟩ .none) (.text "It's") (splitChain "lower")).map
        (fun d => nonEmpty d.first) = .ok (some "it's") := by
  decide +kernel

end Crosswalk.Template
