import Crosswalk.Host.Bundled
import Crosswalk.Proofs.Filter.Chain
import Crosswalk.Proofs.Number.Numeral
import Crosswalk.Proofs.Pairs
import Crosswalk.Proofs.Text.Mark

/-!
# Quoted arguments

A text between quotes reaches a filter as it is, whatever it holds but its own quote. An `Argument`
is such a text with the blanks around it:

    asList ⟨listText args, scope⟩ = args.map text
    asPairs ⟨mapText pairs, scope⟩ = Pairs.ofList (the texts of the pairs)      (filters_quoted)

when no variable has a quote in its name. The tokens between commas and colons are the quoted texts
(`exists_core`), and a scan of the chain passes them inside of the brackets of the call
(`Argument.passes_sequence`).
-/

namespace Crosswalk.Filter

open Text

/-- A text between quotes, its own quote not among its characters, with the blanks around it. -/
structure Argument where
  before : Text
  quote : Char
  text : Text
  after : Text
  before_blank : ∀ c ∈ before, isBlank c = true
  quote_mark : isQuoteMark quote = true
  text_open : quote ∉ text
  after_blank : ∀ c ∈ after, isBlank c = true

namespace Argument

/-- The text between its quotes. -/
def literal (a : Argument) : Text := a.quote :: (a.text ++ [a.quote])

def written (a : Argument) : Text := a.before ++ (a.literal ++ a.after)

variable (a : Argument)

theorem quote_eq : a.quote = '\'' ∨ a.quote = '"' := by
  have h := a.quote_mark
  unfold isQuoteMark at h
  rw [Bool.or_eq_true, beq_iff_eq, beq_iff_eq] at h
  exact h

theorem isBlank_quote : isBlank a.quote = false := by
  rcases a.quote_eq with h | h <;> rw [h] <;> decide

theorem literal_ne_nil : a.literal ≠ [] := List.cons_ne_nil _ _

theorem getLast?_literal : a.literal.getLast? = some a.quote := by
  rw [literal, ← List.cons_append, List.getLast?_append]
  rfl

theorem trimmed_literal : Trimmed isBlank a.literal := by
  refine ⟨fun c hc => ?_, fun c hc => ?_⟩
  · rw [← Option.some.inj hc]
    exact a.isBlank_quote
  · rw [a.getLast?_literal] at hc
    rw [← Option.some.inj hc]
    exact a.isBlank_quote

theorem unquote_literal : unquote a.literal = a.text := by
  have hquoted : isQuoted a.literal = true := by simp [isQuoted, literal, a.quote_mark]
  rw [unquote, if_pos hquoted, literal, List.drop_one, List.tail_cons, List.dropLast_concat]

end Argument

/-- Arguments between commas. -/
def listText (args : List Argument) : Text := joinWith [','] (args.map Argument.written)

/-- Pairs of arguments, a colon between the two, between commas and braces. -/
def mapText (pairs : List (Argument × Argument)) : Text :=
  '{' :: (joinWith [','] (pairs.map fun p => p.1.written ++ ':' :: p.2.written) ++ ['}'])

/-- A name with arguments between parentheses. -/
def callText (name arguments : Text) : Text := name ++ '(' :: (arguments ++ [')'])

variable {s : Text}

/-! ## Passing a scan -/

theorem passes_plain {d : Depth} (hd : d.quote = none) (hs : ∀ c ∈ s, isPlain c = true) :
    Passes d s d := by
  induction s with
  | nil => exact passes_nil d
  | cons c s ih =>
    have hc := hs c List.mem_cons_self
    refine Passes.cons (fun h => ne_bar_of_isPlain hc h.2) ?_
    rw [Depth.step_plain hd hc]
    exact ih fun e he => hs e (List.mem_cons_of_mem c he)

theorem passes_joinWith {d : Depth} {mark : Text} (hmark : Passes d mark d) {parts : List Text}
    (hparts : ∀ s ∈ parts, Passes d s d) : Passes d (joinWith mark parts) d := by
  induction parts with
  | nil => exact passes_nil d
  | cons s parts ih =>
    have hs := hparts s List.mem_cons_self
    by_cases hne : parts = []
    · rw [hne, joinWith_singleton]
      exact hs
    · rw [joinWith_cons _ _ hne]
      exact (hs.append hmark).append (ih fun t ht => hparts t (List.mem_cons_of_mem s ht))

/-! ## One token after another -/

theorem tokens_cons {c : Char} (h : tokenLength? (trimStart (c :: s)) = none) :
    tokens (c :: s) = tokens s := by
  have hform : tokenForm (c :: s) = none := by
    show Option.map _ (tokenLength? (trimStart (c :: s))) = none
    rw [h]
    rfl
  unfold tokens readings
  rw [pieces_cons (by rw [reads, hform]; rfl)]
  rfl

theorem trimStart_blank {b : Text} (hb : ∀ c ∈ b, isBlank c = true) (s : Text) :
    trimStart (b ++ s) = trimStart s := List.dropWhile_append_of_pos hb

theorem trimStart_of_head {c : Char} (hc : isBlank c = false) (s : Text) :
    trimStart (c :: s) = c :: s :=
  dropWhile_of_head fun d hd => by rw [← Option.some.inj hd, hc]

theorem trimStart_trimmed {t : Text} (ht : Trimmed isBlank t) (hne : t ≠ []) (s : Text) :
    trimStart (t ++ s) = t ++ s := by
  obtain ⟨c, t, rfl⟩ := List.exists_cons_of_ne_nil hne
  exact trimStart_of_head (ht.1 c rfl) _

/-- What is left behind a token: a comma belongs to it, and the blanks around the comma. -/
def behind (s : Text) : Text :=
  match trimStart s with
  | ',' :: t => trimStart t
  | t => t

theorem behind_suffix (s : Text) : behind s <:+ s := by
  unfold behind
  split
  · next t ht =>
    have hsuffix : ',' :: t <:+ s := ht ▸ List.dropWhile_suffix isBlank
    exact (List.dropWhile_suffix isBlank).trans ((List.suffix_cons ',' t).trans hsuffix)
  · exact List.dropWhile_suffix isBlank

/-- A token is read with the blanks before it and all that belongs to it. -/
theorem tokens_eq {n : Nat} (hn : 0 < n) (h : tokenLength? (trimStart s) = some n) :
    tokens s = (trimStart s).take n :: tokens (behind ((trimStart s).drop n)) := by
  have hne : trimStart s ≠ [] := by
    intro hnil
    rw [hnil] at h
    cases h
  have hsuffix : behind ((trimStart s).drop n) <:+ s :=
    (behind_suffix _).trans ((List.drop_suffix n _).trans (List.dropWhile_suffix isBlank))
  have hlength : (behind ((trimStart s).drop n)).length < s.length := by
    have hbehind := (behind_suffix ((trimStart s).drop n)).length_le
    have hstart : (trimStart s).length ≤ s.length := (List.dropWhile_suffix isBlank).length_le
    have hpos := List.length_pos_iff.2 hne
    rw [List.length_drop] at hbehind
    omega
  have hform : tokenForm s =
      some ((trimStart s).take n, s.length - (behind ((trimStart s).drop n)).length) := by
    show Option.map _ (tokenLength? (trimStart s)) = _
    rw [h]
    rfl
  obtain ⟨u, hu⟩ := hsuffix
  have hu' : s.length - (behind ((trimStart s).drop n)).length = u.length := by
    have hsum := congrArg List.length hu
    rw [List.length_append] at hsum
    omega
  have hune : u ≠ [] := by
    rintro rfl
    rw [List.length_nil] at hu'
    omega
  rw [hu', ← hu] at hform
  have hpieces := pieces_found hune hform
  rw [hu] at hpieces
  unfold tokens readings
  rw [hpieces]
  rfl

/-- A bracket or a colon is no token. -/
theorem tokenLength?_mark {c : Char} (hc : c ∈ [':', '{', '}'])
    (hopen : startsWith Template.spacedOpen (c :: s) = false) : tokenLength? (c :: s) = none := by
  have hreference : Template.referenceLength? (c :: s) = none := by
    unfold Template.referenceLength?
    rw [after?_eq_none.2 hopen]
    rfl
  have hall : ∀ d ∈ [':', '{', '}'], isQuoteMark d = false ∧ d ≠ '+' ∧ d ≠ '-' ∧ d ≠ '.' ∧
      isDecimal d = false ∧ isNameStart d = false := forall_mem_of_all (by decide)
  obtain ⟨hquote, hplus, hminus, hpoint, hdecimal, hname⟩ := hall c hc
  have hdigits : digitsLength? (c :: s) = none := by
    simp [digitsLength?, hdecimal, hpoint]
  simp [tokenLength?, hreference, quotedLength?, hquote, numberLength?, hplus, hminus, hdigits,
    nameLength?, hname]

theorem tokens_colon (s : Text) : tokens (':' :: s) = tokens s := by
  refine tokens_cons ?_
  rw [trimStart_of_head (by decide)]
  exact tokenLength?_mark (by decide) rfl

/-- Nothing more is read behind a token, after blanks. -/
def Ends (rest : Text) : Prop :=
  ∀ b : Text, (∀ c ∈ b, isBlank c = true) → tokens (behind (b ++ rest)) = []

theorem ends_nil : Ends [] := by
  intro b hb
  have hnil : trimStart b = [] := by
    have h := trimStart_blank hb []
    rwa [List.append_nil] at h
  rw [List.append_nil, behind, hnil]
  rfl

theorem behind_of_head {b : Text} (hb : ∀ c ∈ b, isBlank c = true) {c : Char}
    (hc : isBlank c = false) (hcomma : c ≠ ',') (s : Text) : behind (b ++ c :: s) = c :: s := by
  unfold behind
  rw [trimStart_blank hb, trimStart_of_head hc]
  split
  · next t ht => exact absurd (List.cons.inj ht).1 hcomma
  · rfl

theorem behind_comma {b : Text} (hb : ∀ c ∈ b, isBlank c = true) (s : Text) :
    behind (b ++ ',' :: s) = trimStart s := by
  unfold behind
  rw [trimStart_blank hb, trimStart_of_head (by decide)]
  rfl

theorem ends_brace : Ends ['}'] := by
  intro b hb
  rw [behind_of_head hb (by decide) (by decide)]
  decide

theorem Ends.blank {rest b : Text} (h : Ends rest) (hb : ∀ c ∈ b, isBlank c = true) :
    Ends (b ++ rest) := by
  intro b' hb'
  rw [← List.append_assoc]
  exact h _ (List.forall_mem_append.2 ⟨hb', hb⟩)

/-! ## Sequences of arguments -/

namespace Argument

theorem tokenLength?_literal (a : Argument) (rest : Text) :
    tokenLength? (a.literal ++ rest) = some a.literal.length := by
  have hreference : Template.referenceLength? (a.literal ++ rest) = none := by
    have hopen : startsWith Template.spacedOpen (a.literal ++ rest) = false := by
      rcases a.quote_eq with h | h <;> rw [literal, h] <;> rfl
    unfold Template.referenceLength?
    rw [after?_eq_none.2 hopen]
    rfl
  have hquoted : quotedLength? (a.literal ++ rest) = some a.literal.length := by
    unfold quotedLength? literal
    rw [List.cons_append]
    simp only [a.quote_mark, if_true, List.append_assoc, List.singleton_append,
      cutChar?_of_not_mem a.text_open, Option.map_some, List.length_cons, List.length_append,
      List.length_nil]
  simp [tokenLength?, hreference, hquoted]

theorem tokens_literal (a : Argument) {b : Text} (hb : ∀ c ∈ b, isBlank c = true) (rest : Text) :
    tokens (b ++ (a.literal ++ rest)) = a.literal :: tokens (behind rest) := by
  have htrim : trimStart (b ++ (a.literal ++ rest)) = a.literal ++ rest := by
    rw [trimStart_blank hb, trimStart_trimmed a.trimmed_literal a.literal_ne_nil]
  have hlength : tokenLength? (trimStart (b ++ (a.literal ++ rest))) = some a.literal.length := by
    rw [htrim, a.tokenLength?_literal]
  rw [tokens_eq (List.length_pos_iff.2 a.literal_ne_nil) hlength, htrim, List.take_left,
    List.drop_left]

/-- An argument, and more of them each behind a mark. -/
def sequence (a : Argument) : List (Char × Argument) → Text
  | [] => a.written
  | (mark, b) :: more => a.written ++ mark :: b.sequence more

/-- Between the blanks at its ends, a sequence of arguments is read as their quoted texts. -/
theorem exists_core (a : Argument) {more : List (Char × Argument)}
    (hmarks : ∀ p ∈ more, p.1 = ',' ∨ p.1 = ':') :
    ∃ core b : Text, (∀ c ∈ b, isBlank c = true) ∧ a.sequence more = a.before ++ core ++ b ∧
      Trimmed isBlank core ∧ core ≠ [] ∧
      ∀ x rest : Text, (∀ c ∈ x, isBlank c = true) → Ends rest →
        tokens (x ++ (core ++ rest)) = a.literal :: more.map fun p => p.2.literal := by
  induction more generalizing a with
  | nil =>
    refine ⟨a.literal, a.after, a.after_blank, (List.append_assoc _ _ _).symm, a.trimmed_literal,
      a.literal_ne_nil, fun x rest hx hrest => ?_⟩
    have hend : tokens (behind rest) = [] := hrest [] (List.forall_mem_nil _)
    rw [a.tokens_literal hx, hend]
    rfl
  | cons p more ih =>
    obtain ⟨mark, next⟩ := p
    obtain ⟨core, b, hb, hsequence, htrimmed, hne, htokens⟩ :=
      ih next fun q hq => hmarks q (List.mem_cons_of_mem _ hq)
    refine ⟨a.literal ++ (a.after ++ mark :: next.before) ++ core, b, hb, ?_,
      a.trimmed_literal.append a.literal_ne_nil htrimmed hne _, by simp, ?_⟩
    · rw [sequence, hsequence, written]
      simp only [List.append_assoc, List.cons_append]
    · intro x rest hx hrest
      have hsplit : x ++ (a.literal ++ (a.after ++ mark :: next.before) ++ core ++ rest) =
          x ++ (a.literal ++ (a.after ++ mark :: (next.before ++ (core ++ rest)))) := by
        simp only [List.append_assoc, List.cons_append]
      rw [hsplit, a.tokens_literal hx]
      refine congrArg (a.literal :: ·) ?_
      rcases hmarks _ List.mem_cons_self with hmark | hmark
      · obtain rfl : mark = ',' := hmark
        rw [behind_comma a.after_blank, trimStart_blank next.before_blank,
          trimStart_trimmed htrimmed hne]
        exact htokens [] rest (List.forall_mem_nil _) hrest
      · obtain rfl : mark = ':' := hmark
        rw [behind_of_head a.after_blank (by decide) (by decide), tokens_colon]
        exact htokens _ rest next.before_blank hrest

theorem tokens_sequence (a : Argument) {more : List (Char × Argument)}
    (hmarks : ∀ p ∈ more, p.1 = ',' ∨ p.1 = ':') {rest : Text} (hrest : Ends rest) :
    tokens (a.sequence more ++ rest) = a.literal :: more.map fun p => p.2.literal := by
  obtain ⟨core, b, hb, hsequence, -, -, htokens⟩ := a.exists_core hmarks
  rw [hsequence, List.append_assoc, List.append_assoc]
  exact htokens _ _ a.before_blank (hrest.blank hb)

/-- Blanks around a sequence change nothing. -/
theorem tokens_trim_sequence (a : Argument) {more : List (Char × Argument)}
    (hmarks : ∀ p ∈ more, p.1 = ',' ∨ p.1 = ':') :
    tokens (trim (a.sequence more)) = a.literal :: more.map fun p => p.2.literal := by
  obtain ⟨core, b, hb, hsequence, htrimmed, -, htokens⟩ := a.exists_core hmarks
  have htrim : trim (a.sequence more) = core := by
    rw [hsequence]
    exact trimOf_surrounded a.before_blank htrimmed hb
  have hcore := htokens [] [] (List.forall_mem_nil _) ends_nil
  rwa [List.nil_append, List.append_nil, ← htrim] at hcore

/-! ## Lists and pairs -/

theorem listText_cons (a : Argument) (args : List Argument) :
    listText (a :: args) = a.sequence (args.map fun b => (',', b)) := by
  induction args generalizing a with
  | nil => exact joinWith_singleton _ _
  | cons b args ih =>
    unfold listText at ih ⊢
    rw [List.map_cons, joinWith_cons _ _ (by simp), ih b, List.append_assoc]
    rfl

theorem comma_marks (args : List Argument) :
    ∀ p ∈ args.map fun b => (',', b), p.1 = ',' ∨ p.1 = ':' := by
  intro p hp
  obtain ⟨b, -, rfl⟩ := List.mem_map.1 hp
  exact .inl rfl

theorem tokens_listText (args : List Argument) :
    tokens (listText args) = args.map literal ∧
      tokens (trim (listText args)) = args.map literal := by
  cases args with
  | nil => exact ⟨rfl, rfl⟩
  | cons a args =>
    have hmarks := comma_marks args
    have htokens := a.tokens_sequence hmarks ends_nil
    rw [List.append_nil] at htokens
    rw [listText_cons, htokens, a.tokens_trim_sequence hmarks, List.map_map]
    exact ⟨rfl, rfl⟩

/-- The pairs behind the first one, in one sequence. -/
def pairMarks (pairs : List (Argument × Argument)) : List (Char × Argument) :=
  pairs.flatMap fun p => [(',', p.1), (':', p.2)]

theorem joinWith_pairs (p : Argument × Argument) (pairs : List (Argument × Argument)) :
    joinWith [','] ((p :: pairs).map fun p => p.1.written ++ ':' :: p.2.written) =
      p.1.sequence ((':', p.2) :: pairMarks pairs) := by
  induction pairs generalizing p with
  | nil => exact joinWith_singleton _ _
  | cons q pairs ih =>
    rw [List.map_cons, joinWith_cons _ _ (by simp), ih q]
    simp only [pairMarks, List.flatMap_cons, sequence, List.append_assoc, List.cons_append,
      List.nil_append]

theorem pair_marks (p : Argument × Argument) (pairs : List (Argument × Argument)) :
    ∀ q ∈ (':', p.2) :: pairMarks pairs, q.1 = ',' ∨ q.1 = ':' := by
  intro q hq
  rcases List.mem_cons.1 hq with rfl | hq
  · exact .inr rfl
  · obtain ⟨r, -, hr⟩ := List.mem_flatMap.1 hq
    simp only [List.mem_cons, List.not_mem_nil, or_false] at hr
    rcases hr with rfl | rfl
    · exact .inl rfl
    · exact .inr rfl

theorem map_pairMarks (pairs : List (Argument × Argument)) :
    (pairMarks pairs).map (fun q => q.2.literal) =
      pairs.flatMap fun p => [p.1.literal, p.2.literal] := by
  unfold pairMarks
  rw [List.map_flatMap]
  rfl

/-- What stands between the braces. -/
theorem tokens_joinWith_pairs (pairs : List (Argument × Argument)) {rest : Text}
    (hrest : Ends rest) (hnil : tokens rest = []) :
    tokens (joinWith [','] (pairs.map fun p => p.1.written ++ ':' :: p.2.written) ++ rest) =
      pairs.flatMap fun p => [p.1.literal, p.2.literal] := by
  cases pairs with
  | nil => exact hnil
  | cons p pairs =>
    rw [joinWith_pairs, p.1.tokens_sequence (pair_marks p pairs) hrest, List.map_cons,
      map_pairMarks]
    rfl

theorem tokens_trim_joinWith_pairs (pairs : List (Argument × Argument)) :
    tokens (trim (joinWith [','] (pairs.map fun p => p.1.written ++ ':' :: p.2.written))) =
      pairs.flatMap fun p => [p.1.literal, p.2.literal] := by
  cases pairs with
  | nil => rfl
  | cons p pairs =>
    rw [joinWith_pairs, p.1.tokens_trim_sequence (pair_marks p pairs), List.map_cons,
      map_pairMarks]
    rfl

theorem tokens_mapText (pairs : List (Argument × Argument)) :
    tokens (mapText pairs) = pairs.flatMap fun p => [p.1.literal, p.2.literal] := by
  have hbrace : tokenLength? (trimStart (mapText pairs)) = none := by
    unfold mapText
    rw [trimStart_of_head (by decide)]
    refine tokenLength?_mark (by decide) ?_
    cases pairs with
    | nil => rfl
    | cons p pairs =>
      -- The brace is followed by a blank or a quote.
      obtain ⟨core, b, -, hsequence, -⟩ := p.1.exists_core (pair_marks p pairs)
      rw [joinWith_pairs]
      cases hbefore : p.1.before with
      | nil =>
        have hwritten : p.1.sequence ((':', p.2) :: pairMarks pairs) =
            p.1.quote :: (p.1.text ++ [p.1.quote] ++ p.1.after ++
              ':' :: p.2.sequence (pairMarks pairs)) := by
          simp [sequence, written, literal, hbefore]
        rw [hwritten]
        rcases p.1.quote_eq with h | h <;> rw [h] <;> rfl
      | cons c before =>
        have hc : isBlank c = true := p.1.before_blank c (by rw [hbefore]; exact List.mem_cons_self)
        have hne : '{' ≠ c := by
          rintro rfl
          revert hc
          decide
        rw [hsequence, hbefore]
        simp [startsWith, Template.spacedOpen, after?, hne]
  unfold mapText at hbrace ⊢
  rw [tokens_cons hbrace]
  exact tokens_joinWith_pairs pairs ends_brace (by decide)

/-! ## Values -/

variable {scope : Scope}

/-- A quoted text stands for itself, when no variable has its name. -/
theorem value_literal (hv : ∀ name ∈ Pairs.keys scope.vars, name.any isQuoteMark = false)
    (a : Argument) : Arguments.value scope a.literal = a.text := by
  have hbraces : after? ['{', '{'] a.literal = none := by
    rcases a.quote_eq with h | h <;> rw [literal, h] <;> rfl
  have hunknown : Pairs.get? a.literal scope.vars = none := by
    refine Pairs.get?_eq_none.2 fun hmem => ?_
    have hquote := hv _ hmem
    rw [literal, List.any_cons, a.quote_mark] at hquote
    cases hquote
  have hhead : (a.literal.head?.any isQuoteMark) = true := a.quote_mark
  unfold Arguments.value
  simp only [hbraces, hunknown, hhead, if_true, a.unquote_literal]

theorem key_literal (a : Argument) : Arguments.key a.literal = a.text := by
  have hnumber : isNumeric a.literal = false := by
    unfold isNumeric
    rw [trim, a.trimmed_literal.trimOf_eq]
    exact not_readFloat?_of_mem (List.mem_cons_self) a.isBlank_quote
      (by rcases a.quote_eq with h | h <;> rw [h] <;> decide)
      (by rcases a.quote_eq with h | h <;> rw [h] <;> decide)
  unfold Arguments.key
  rw [hnumber]
  exact a.unquote_literal

theorem pairsOf_literals (hv : ∀ name ∈ Pairs.keys scope.vars, name.any isQuoteMark = false)
    (pairs : List (Argument × Argument)) :
    Arguments.pairsOf scope (pairs.flatMap fun p => [p.1.literal, p.2.literal]) =
      pairs.map fun p => (p.1.text, p.2.text) := by
  induction pairs with
  | nil => rfl
  | cons p pairs ih =>
    rw [List.flatMap_cons, List.cons_append, List.cons_append, List.nil_append,
      Arguments.pairsOf, ih, key_literal, value_literal hv]
    rfl

theorem asList_of_tokens (hv : ∀ name ∈ Pairs.keys scope.vars, name.any isQuoteMark = false)
    {args : List Argument} (h : tokens s = args.map literal) :
    Arguments.asList ⟨s, scope⟩ = args.map text := by
  unfold Arguments.asList
  rw [h, List.map_map]
  exact List.map_congr_left fun a _ => a.value_literal hv

theorem asPairs_of_tokens (hv : ∀ name ∈ Pairs.keys scope.vars, name.any isQuoteMark = false)
    {pairs : List (Argument × Argument)}
    (h : tokens s = pairs.flatMap fun p => [p.1.literal, p.2.literal]) :
    Arguments.asPairs ⟨s, scope⟩ = Pairs.ofList (pairs.map fun p => (p.1.text, p.2.text)) := by
  unfold Arguments.asPairs
  rw [h, pairsOf_literals hv]

end Argument

/-! ## Calls -/

section

variable {name : Text} (hne : name ≠ []) (hword : ∀ c ∈ name, isAsciiWord c = true)
include hne hword

theorem trim_callText (arguments : Text) :
    trim (callText name arguments) = callText name arguments := by
  refine Trimmed.trimOf_eq ⟨fun c hc => ?_, fun c hc => ?_⟩
  · obtain ⟨d, name, rfl⟩ := List.exists_cons_of_ne_nil hne
    obtain rfl : d = c := Option.some.inj hc
    refine not_isBlank_of_isWord ?_
    rw [isWord, hword d List.mem_cons_self, Bool.true_or]
  · have hlast : (callText name arguments).getLast? = some ')' := by
      simp [callText, List.getLast?_append, List.getLast?_cons]
    rw [hlast] at hc
    rw [← Option.some.inj hc]
    decide

theorem readCall_callText (arguments : Text) :
    readCall (callText name arguments) = (name, trim arguments) := by
  have hname : (callText name arguments).takeWhile isAsciiWord = name := by
    rw [callText, List.takeWhile_append_of_pos hword]
    simp [isAsciiWord, isAsciiLetter]
  have hrest : (callText name arguments).dropWhile isAsciiWord = '(' :: (arguments ++ [')']) := by
    rw [callText, List.dropWhile_append_of_pos hword]
    rfl
  have hparen : isBlank '(' = false := by decide
  have hcall : readCall? (callText name arguments) = some (name, trim arguments) := by
    unfold readCall?
    simp only [trim_callText hne hword, hname, hrest, trimStart_of_head hparen]
    rw [if_pos ⟨hne, by simp⟩, List.dropLast_concat]
  rw [readCall, hcall]
  rfl

omit hne in
/-- A scan passes a call when it passes the arguments between the parentheses. -/
theorem passes_callText {arguments : Text}
    (harguments : Passes ⟨none, 1⟩ arguments ⟨none, 1⟩) :
    Passes .outside (callText name arguments) .outside := by
  have hplain : Passes .outside name .outside :=
    passes_plain rfl fun c hc => isPlain_of_isWord (by rw [isWord, hword c hc, Bool.true_or])
  have hclose : Passes ⟨none, 1⟩ [')'] .outside := by
    unfold Passes
    decide
  exact hplain.append (Passes.cons (by decide) (harguments.append hclose))

/-- Such a call is one step. -/
theorem splitChain_callText {arguments : Text}
    (harguments : Passes ⟨none, 1⟩ arguments ⟨none, 1⟩) :
    splitChain (callText name arguments) = [callText name arguments] := by
  have hstep : IsStep (callText name arguments) :=
    { trimmed := trim_callText hne hword arguments
      nonempty := by simp [callText]
      uncut := (passes_callText hword harguments).1 }
  exact hstep.splitChain

end

namespace Argument

variable {d : Depth}

/-- Between its quotes a scan passes any text. -/
theorem passes_literal (a : Argument) (hd : d.quote = none) : Passes d a.literal d := by
  obtain ⟨quote, count⟩ := d
  obtain rfl : quote = none := hd
  have hinside : ∀ s : Text, a.quote ∉ s →
      Passes ⟨some a.quote, count⟩ (s ++ [a.quote]) ⟨none, count⟩ := by
    intro s hs
    induction s with
    | nil =>
      refine Passes.cons (fun h => Option.some_ne_none _ (congrArg Depth.quote h.1)) ?_
      simpa [Depth.step, Quote.step] using passes_nil ⟨none, count⟩
    | cons c s ih =>
      obtain ⟨hc, hs⟩ := not_or.1 (mt List.mem_cons.2 hs)
      refine Passes.cons (fun h => Option.some_ne_none _ (congrArg Depth.quote h.1)) ?_
      have hstep : Depth.step ⟨some a.quote, count⟩ c = ⟨some a.quote, count⟩ := by
        simp [Depth.step, Quote.step, Ne.symm hc]
      rw [hstep]
      exact ih hs
  have hbar : a.quote ≠ '|' := by
    rcases a.quote_eq with h | h <;> rw [h] <;> decide
  refine Passes.cons (fun h => hbar h.2) ?_
  have hstep : Depth.step ⟨none, count⟩ a.quote = ⟨some a.quote, count⟩ := by
    simp [Depth.step, Quote.step, a.quote_mark]
  rw [hstep]
  exact hinside a.text a.text_open

theorem passes_written (a : Argument) (hd : d.quote = none) : Passes d a.written d := by
  have hbefore := passes_plain hd fun c hc => isPlain_of_isBlank (a.before_blank c hc)
  have hafter := passes_plain hd fun c hc => isPlain_of_isBlank (a.after_blank c hc)
  exact hbefore.append ((a.passes_literal hd).append hafter)

theorem passes_listText (args : List Argument) (hd : d.quote = none) :
    Passes d (listText args) d := by
  refine passes_joinWith (passes_plain hd (forall_mem_of_all (by decide))) fun s hs => ?_
  obtain ⟨a, -, rfl⟩ := List.mem_map.1 hs
  exact a.passes_written hd

theorem passes_mapText (pairs : List (Argument × Argument)) :
    Passes ⟨none, 1⟩ (mapText pairs) ⟨none, 1⟩ := by
  have hpairs : Passes ⟨none, 2⟩
      (joinWith [','] (pairs.map fun p => p.1.written ++ ':' :: p.2.written)) ⟨none, 2⟩ := by
    refine passes_joinWith (passes_plain rfl (forall_mem_of_all (by decide))) fun s hs => ?_
    obtain ⟨p, -, rfl⟩ := List.mem_map.1 hs
    have hcolon : Passes ⟨none, 2⟩ [':'] ⟨none, 2⟩ :=
      passes_plain rfl (forall_mem_of_all (by decide))
    exact (p.1.passes_written rfl).append (hcolon.append (p.2.passes_written rfl))
  have hclose : Passes ⟨none, 2⟩ ['}'] ⟨none, 1⟩ := by
    unfold Passes
    decide
  exact Passes.cons (by decide) (hpairs.append hclose)

end Argument

/-! ## What a filter is given -/

/-- The pairs as a dictionary. -/
def dictionary (pairs : List (Argument × Argument)) : Pairs Text Text :=
  Pairs.ofList (pairs.map fun p => (p.1.text, p.2.text))

variable {scope : Scope}

theorem runSteps_singleton [Host] (v : Datum) (step : Text) :
    runSteps scope v [step] = applyStep scope v step := by
  rw [runSteps, List.foldlM_cons]
  cases applyStep scope v step <;> rfl

theorem runSteps_implode [Host] (hv : ∀ name ∈ Pairs.keys scope.vars, name.any isQuoteMark = false)
    (v : Datum) (mark : Argument) (args : List Argument) :
    runSteps scope v (splitChain (callText "implode" (listText (mark :: args)))) =
      .ok (.text (joinWith mark.text (args.map Argument.text))) := by
  have hword : ∀ c ∈ ("implode" : Text), isAsciiWord c = true := forall_mem_of_all (by decide)
  have hlist := Argument.asList_of_tokens hv (Argument.tokens_listText (mark :: args)).2
  rw [splitChain_callText (by decide) hword (Argument.passes_listText _ rfl), runSteps_singleton]
  unfold applyStep
  rw [readCall_callText (by decide) hword]
  show applyFilter implode v ⟨trim (listText (mark :: args)), scope⟩ = _
  rw [applyFilter, implode, hlist]
  rfl

theorem runSteps_table [Host] (hv : ∀ name ∈ Pairs.keys scope.vars, name.any isQuoteMark = false)
    (v : Datum) (pairs : List (Argument × Argument)) :
    runSteps scope v (splitChain (callText "table" (mapText pairs))) =
      .ok (.text ((Pairs.get? v.first (dictionary pairs)).getD v.first)) := by
  have hword : ∀ c ∈ ("table" : Text), isAsciiWord c = true := forall_mem_of_all (by decide)
  have htrim : trim (mapText pairs) = mapText pairs := by
    refine Trimmed.trimOf_eq ⟨fun c hc => ?_, fun c hc => ?_⟩
    · rw [← Option.some.inj hc]
      decide
    · rw [mapText, ← List.cons_append, List.getLast?_concat] at hc
      rw [← Option.some.inj hc]
      decide
  rw [splitChain_callText (by decide) hword (Argument.passes_mapText pairs), runSteps_singleton]
  unfold applyStep
  rw [readCall_callText (by decide) hword, htrim]
  show applyFilter table v ⟨mapText pairs, scope⟩ = _
  have hinner : Arguments.asPairs
      ⟨trim (joinWith [','] (pairs.map fun p => p.1.written ++ ':' :: p.2.written)), scope⟩ =
        dictionary pairs :=
    Argument.asPairs_of_tokens hv (Argument.tokens_trim_joinWith_pairs pairs)
  unfold applyFilter table
  simp only [htrim]
  unfold mapText
  simp only [List.dropLast_concat, hinner]

/-- **Quoted arguments** reach a filter as they are: as a list, as a dictionary in which the last
value of a key stays, joined by `implode`, and as the entries of a table. -/
theorem filters_quoted [Host] (hv : ∀ name ∈ Pairs.keys scope.vars, name.any isQuoteMark = false) :
    (∀ args, Arguments.asList ⟨listText args, scope⟩ = args.map Argument.text) ∧
    (∀ pairs, Arguments.asPairs ⟨mapText pairs, scope⟩ = dictionary pairs ∧
      Pairs.keys (dictionary pairs) = distinct (pairs.map fun p => p.1.text) ∧
      ∀ k, Pairs.get? k (dictionary pairs) =
        Pairs.get? k (pairs.reverse.map fun p => (p.1.text, p.2.text))) ∧
    (∀ mark args, evaluate scope (callText "implode" (listText (mark :: args))) =
      .ok (joinWith mark.text (args.map Argument.text))) ∧
    ∀ pairs, (∀ v, runSteps scope v (splitChain (callText "table" (mapText pairs))) =
        .ok (.text ((Pairs.get? v.first (dictionary pairs)).getD v.first))) ∧
      ∀ chain, Closed chain → evaluate scope (chain ++ '|' :: callText "table" (mapText pairs)) =
        (evaluate scope chain).map fun s => (Pairs.get? s (dictionary pairs)).getD s := by
  refine ⟨fun args => Argument.asList_of_tokens hv (Argument.tokens_listText args).1,
    fun pairs => ⟨Argument.asPairs_of_tokens hv (Argument.tokens_mapText pairs), ?_, fun k => ?_⟩,
    fun mark args => ?_, fun pairs => ⟨fun v => runSteps_table hv v pairs, fun chain hchain => ?_⟩⟩
  · rw [dictionary, Pairs.keys_ofList, List.map_map]
    rfl
  · rw [dictionary, Pairs.get?_ofList, List.map_reverse]
  · rw [evaluate, runSteps_implode hv]
    rfl
  · rw [evaluate, splitChain_append hchain, runSteps_append, evaluate]
    cases runSteps scope (.text []) (splitChain chain) with
    | error e => rfl
    | ok v => exact congrArg (Except.map Datum.first) (runSteps_table hv v pairs)

/-- A key with the marks of a chain in it. -/
def markedKey : Argument where
  before := [' ']
  quote := '\''
  text := "a, (b|: \x7b"
  after := []
  before_blank := forall_mem_of_all (by decide)
  quote_mark := rfl
  text_open := by decide
  after_blank := forall_mem_of_all (by decide)

/-- A value with the other quote in it. -/
def quotedValue : Argument where
  before := [' ']
  quote := '"'
  text := "it's"
  after := [' ']
  before_blank := forall_mem_of_all (by decide)
  quote_mark := rfl
  text_open := by decide
  after_blank := forall_mem_of_all (by decide)

theorem filters_quoted_marks :
    evaluate ⟨[("a", "a, (b|: \x7b")], []⟩
        ("a" ++ '|' ::
          callText "table" (mapText [(markedKey, markedKey), (markedKey, quotedValue)])) =
      .ok "it's" ∧
    evaluate ⟨[("a", "x")], []⟩
        (callText "implode" (listText [quotedValue, markedKey, markedKey])) =
      .ok "a, (b|: \x7bit'sa, (b|: \x7b" := by
  refine ⟨?_, ?_⟩
  · exact (((filters_quoted (by decide)).2.2.2 _).2 "a" (by decide)).trans (by decide)
  · exact ((filters_quoted (by decide)).2.2.1 quotedValue [markedKey, markedKey]).trans (by decide)

end Crosswalk.Filter
