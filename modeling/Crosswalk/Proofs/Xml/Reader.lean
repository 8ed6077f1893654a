import Crosswalk.Proofs.Xml.Tags

/-!
# Reading xml from left to right

What a reader takes off the head of a text does not depend on what follows:

    content? keep scope s = some (nodes, rest) →
      content? keep scope (s ++ z) = some (nodes, rest ++ z)                    (content?_append)

A reader that stops where the next character is of another kind needs some character to stop at.
A text of `n` characters needs no more than `n + 1` rounds, and more rounds change nothing
(`readContent?_eq`); `chars?`, `element?` and `content?` are the readers with as many as they need.
-/

namespace Crosswalk.Xml

open Text

variable {s t z rest : Text}

/-! ## Comments and instructions -/

theorem readComment?_append {a : Text} (h : readComment? s = some (a, rest)) (z : Text) :
    rest.length < s.length ∧ readComment? (s ++ z) = some (a, rest ++ z) := by
  unfold readComment? at h ⊢
  split at h
  · next a' rest' hcut =>
    split at h
    · next hall =>
      cases h
      have hlength := length_lt_of_cut? (by decide) hcut
      have hlonger := cut?_append_right (by decide) hcut z
      rw [List.length_cons] at hlength
      refine ⟨by omega, ?_⟩
      rw [hlonger]
      exact if_pos hall
    · cases h
  · cases h

theorem readInstruction?_append {p : Text × Text} (h : readInstruction? s = some (p, rest))
    (z : Text) : rest.length < s.length ∧ readInstruction? (s ++ z) = some (p, rest ++ z) := by
  unfold readInstruction? at h ⊢
  cases hbase : readBase? s with
  | none => rw [hbase] at h; cases h
  | some q =>
    obtain ⟨target, t⟩ := q
    rw [hbase] at h
    dsimp only at h
    split at h
    · cases h
    · next hname =>
      cases hcut : cut? ['?', '>'] t with
      | none => rw [hcut] at h; cases h
      | some r =>
        obtain ⟨data, u⟩ := r
        rw [hcut] at h
        dsimp only at h
        split at h
        · next hdata =>
          cases h
          have hne : t ≠ [] := by
            rintro rfl
            cases hcut
          have hshorter := length_readBase? hbase
          have hlength := length_lt_of_cut? (by decide) hcut
          refine ⟨by omega, ?_⟩
          rw [readBase?_append hbase hne]
          dsimp only
          rw [if_neg hname, cut?_append_right (by decide) hcut]
          exact if_pos hdata
        · cases h

/-! ## Runs of characters -/

/-- A marked section, a reference or another character at the head of a text, as the characters
that it stands for. -/
def readPiece? : Text → Option (Text × Text)
  | [] => none
  | c :: s =>
    if c = '<' then
      (after? cdataMark (c :: s)).bind fun t => (cut? cdataClose t).bind fun p =>
        if p.1.all isAllowed then some p else none
    else if c = '&' then (readReference? s).map fun p => ([p.1], p.2)
    else if isAllowed c = false ∨ startsWith cdataClose (c :: s) then none
    else some ([c], s)

/-- The text starts with markup that is no marked section. -/
def AtMarkup (s : Text) : Prop := s.head? = some '<' ∧ after? cdataMark s = none

theorem not_atMarkup_append (hne : s ≠ []) (h : ¬ AtMarkup s) (z : Text) :
    ¬ AtMarkup (s ++ z) := by
  obtain ⟨c, u, rfl⟩ := List.exists_cons_of_ne_nil hne
  rintro ⟨hhead, hmark⟩
  cases hafter : after? cdataMark (c :: u) with
  | none => exact h ⟨hhead, hafter⟩
  | some t =>
    rw [after?_append_right hafter] at hmark
    cases hmark

theorem cdataMark_eq : cdataMark = ['<', '!', '[', 'C', 'D', 'A', 'T', 'A', '['] := by decide

/-- Behind a `<`, a marked section starts with `![`. -/
theorem atMarkup_cons (h : after? ['!', '['] s = none) : AtMarkup ('<' :: s) := by
  refine ⟨rfl, after?_eq_none.2 ?_⟩
  cases hmark : startsWith cdataMark ('<' :: s) with
  | false => rfl
  | true =>
    rw [cdataMark_eq] at hmark
    obtain ⟨r, hr⟩ := startsWith_iff.1 hmark
    rw [(List.cons.inj hr).2] at h
    cases h

theorem atMarkup_of_name {c : Char} (hc : isNameStart c = true) (s : Text) :
    AtMarkup ('<' :: c :: s) :=
  atMarkup_cons (by simp [after?, (ne_of_isNameStart hc (d := '!') (by decide)).symm])

theorem readChars?_of_markup {fuel : Nat} (h : AtMarkup s) :
    readChars? (fuel + 1) s = some ([], s) := by
  obtain ⟨hhead, hmark⟩ := h
  cases s with
  | nil => cases hhead
  | cons c s =>
    rw [readChars?, if_pos (Option.some.inj hhead), hmark]

/-- A run of characters is piece by piece up to the next markup. -/
theorem readChars?_of_not_markup {fuel : Nat} (hne : s ≠ []) (h : ¬ AtMarkup s) :
    readChars? (fuel + 1) s = (readPiece? s).bind fun p =>
      (readChars? fuel p.2).map fun q => (p.1 ++ q.1, q.2) := by
  obtain ⟨c, s, rfl⟩ := List.exists_cons_of_ne_nil hne
  rw [readChars?, readPiece?]
  split
  · next hc =>
    cases hmark : after? cdataMark (c :: s) with
    | none => exact absurd ⟨congrArg some hc, hmark⟩ h
    | some t =>
      dsimp only [Option.bind_some]
      cases cut? cdataClose t with
      | none => rfl
      | some p =>
        dsimp only [Option.bind_some]
        split <;> rfl
  · split
    · cases readReference? s <;> rfl
    · split <;> rfl

theorem suffix_readPiece? {a : Text} (h : readPiece? s = some (a, rest)) :
    ∃ p, p ≠ [] ∧ s = p ++ rest := by
  cases s with
  | nil => cases h
  | cons c s =>
    rw [readPiece?] at h
    split at h
    · obtain ⟨t, ht, h⟩ := Option.bind_eq_some_iff.1 h
      obtain ⟨p, hp, h⟩ := Option.bind_eq_some_iff.1 h
      split at h
      · cases h
        have hmark : cdataMark ≠ [] := by decide
        refine ⟨cdataMark ++ (a ++ cdataClose), List.append_ne_nil_of_left_ne_nil hmark _, ?_⟩
        rw [after?_eq_some.1 ht, cut?_eq_some hp]
        simp only [List.append_assoc]
      · cases h
    · split at h
      · obtain ⟨p, hp, he⟩ := Option.map_eq_some_iff.1 h
        obtain ⟨rfl, rfl⟩ := Prod.mk.inj he
        obtain ⟨name, hname⟩ := suffix_readReference? hp
        exact ⟨c :: (name ++ [';']), List.cons_ne_nil _ _, by rw [hname]; simp⟩
      · split at h
        · cases h
        · cases h
          exact ⟨[c], List.cons_ne_nil _ _, rfl⟩

theorem readPiece?_append {a : Text} (h : readPiece? s = some (a, rest)) (hrest : '<' ∈ rest)
    (z : Text) : readPiece? (s ++ z) = some (a, rest ++ z) := by
  cases s with
  | nil => cases h
  | cons c s =>
    rw [readPiece?] at h
    rw [List.cons_append, readPiece?]
    split at h
    · next hc =>
      obtain ⟨t, ht, h⟩ := Option.bind_eq_some_iff.1 h
      obtain ⟨p, hp, h⟩ := Option.bind_eq_some_iff.1 h
      split at h
      · next hall =>
        cases h
        have hmark := after?_append_right ht z
        rw [List.cons_append] at hmark
        rw [if_pos hc, hmark, Option.bind_some, cut?_append_right (by decide) hp, Option.bind_some,
          if_pos hall]
      · cases h
    · next hc =>
      rw [if_neg hc]
      split at h
      · next hamp =>
        obtain ⟨p, hp, he⟩ := Option.map_eq_some_iff.1 h
        obtain ⟨rfl, rfl⟩ := Prod.mk.inj he
        rw [if_pos hamp, readReference?_append hp]
        rfl
      · next hamp =>
        rw [if_neg hamp]
        split at h
        · cases h
        · next hbad =>
          cases h
          obtain ⟨hallowed, hclose⟩ := not_or.1 hbad
          have hlonger := not_startsWith_append (List.mem_cons_of_mem c hrest) (by decide)
            (Bool.eq_false_iff.2 hclose) z
          rw [List.cons_append] at hlonger
          rw [hlonger, if_neg (by simpa using hallowed)]

theorem suffix_readChars? {fuel : Nat} {a : Text} (h : readChars? fuel s = some (a, rest)) :
    rest <:+ s := by
  induction fuel generalizing s a with
  | zero => cases h
  | succ fuel ih =>
    by_cases hmarkup : AtMarkup s
    · rw [readChars?_of_markup hmarkup] at h
      cases h
      exact List.suffix_rfl
    · cases s with
      | nil => cases h; exact List.suffix_rfl
      | cons c s =>
        rw [readChars?_of_not_markup (List.cons_ne_nil c s) hmarkup] at h
        obtain ⟨p, hp, h⟩ := Option.bind_eq_some_iff.1 h
        obtain ⟨q, hq, he⟩ := Option.map_eq_some_iff.1 h
        obtain ⟨rfl, rfl⟩ := Prod.mk.inj he
        obtain ⟨u, -, hu⟩ := suffix_readPiece? hp
        exact (ih hq).trans ⟨u, hu.symm⟩

/-- Characters are read up to the next markup, or to the end. -/
theorem atMarkup_readChars? {fuel : Nat} {a : Text} (h : readChars? fuel s = some (a, rest))
    (hrest : rest ≠ []) : AtMarkup rest := by
  induction fuel generalizing s a with
  | zero => cases h
  | succ fuel ih =>
    by_cases hmarkup : AtMarkup s
    · rw [readChars?_of_markup hmarkup] at h
      cases h
      exact hmarkup
    · cases s with
      | nil => cases h; exact absurd rfl hrest
      | cons c s =>
        rw [readChars?_of_not_markup (List.cons_ne_nil c s) hmarkup] at h
        obtain ⟨p, hp, h⟩ := Option.bind_eq_some_iff.1 h
        obtain ⟨q, hq, he⟩ := Option.map_eq_some_iff.1 h
        obtain ⟨rfl, rfl⟩ := Prod.mk.inj he
        exact ih hq

theorem readChars?_append {fuel fuel' : Nat} {a : Text} (h : readChars? fuel s = some (a, rest))
    (hrest : rest ≠ []) (hmarkup : AtMarkup (rest ++ z)) (hfuel : (s ++ z).length < fuel') :
    readChars? fuel' (s ++ z) = some (a, rest ++ z) := by
  induction fuel generalizing s a fuel' with
  | zero => cases h
  | succ fuel ih =>
    obtain ⟨fuel', rfl⟩ : ∃ n, fuel' = n + 1 := ⟨fuel' - 1, by omega⟩
    by_cases hs : AtMarkup s
    · rw [readChars?_of_markup hs] at h
      cases h
      exact readChars?_of_markup hmarkup
    · cases s with
      | nil => cases h; exact absurd rfl hrest
      | cons c s =>
        rw [readChars?_of_not_markup (List.cons_ne_nil c s) hs] at h
        obtain ⟨p, hp, h⟩ := Option.bind_eq_some_iff.1 h
        obtain ⟨q, hq, he⟩ := Option.map_eq_some_iff.1 h
        obtain ⟨rfl, rfl⟩ := Prod.mk.inj he
        obtain ⟨u, hu, hsplit⟩ := suffix_readPiece? hp
        have hopen : '<' ∈ p.2 :=
          (suffix_readChars? hq).subset (List.mem_of_mem_head? (atMarkup_readChars? hq hrest).1)
        have hroom : (p.2 ++ z).length < fuel' := by
          have := List.length_pos_iff.2 hu
          rw [hsplit] at hfuel
          simp only [List.length_append] at hfuel ⊢
          omega
        rw [readChars?_of_not_markup (by simp) (not_atMarkup_append (by simp) hs z),
          readPiece?_append hp hopen, Option.bind_some, ih hq hroom]
        rfl

/-! ## Elements -/

variable {keep : Bool} {scope : Spaces} {fuel fuel' : Nat}

/-- The element of a tag, from the end of the tag on. -/
def readFrom? (keep : Bool) (fuel : Nat) (g : Tag) : Text → Option (Node × Text)
  | '/' :: '>' :: rest => some (g.element [], rest)
  | '>' :: t => (readContent? keep g.inside fuel t).bind fun c =>
      (endTag? g.written c.2).map fun rest => (g.element (joinTexts c.1), rest)
  | _ => none

theorem readElement?_succ : readElement? keep scope (fuel + 1) s =
    (readTag? scope s).bind fun p => readFrom? keep fuel p.1 p.2 := by
  rw [readElement?, readTag?]
  cases hname : readName? s with
  | none => rfl
  | some p =>
    obtain ⟨name, t⟩ := p
    dsimp only [Option.bind_some]
    cases hattributes : readAttributes? (t.length + 1) t with
    | none => rfl
    | some a =>
      obtain ⟨written, u⟩ := a
      dsimp only [Option.bind_some]
      cases hresolve : resolveTag? scope name written with
      | none => rfl
      | some r =>
        obtain ⟨q, attributes, declared, inside⟩ := r
        dsimp only [Option.map_some, Option.bind_some]
        split
        · rw [readFrom?]
          rfl
        · next _ v =>
          rw [readFrom?]
          cases readContent? keep inside fuel v <;> rfl
        · next hclosed hopen =>
          rw [readFrom?]
          · exact fun rest h => hclosed rest h
          · exact fun v h => hopen v h

/-- A comment, an instruction or an element behind a `<`, as the nodes that it adds. -/
def readMarkup? (keep : Bool) (scope : Spaces) (fuel : Nat) : Text → Option (List Node × Text)
  | '!' :: '-' :: '-' :: u =>
    (readComment? u).map fun p => (if keep then [.comment p.1] else [], p.2)
  | '?' :: u => (readInstruction? u).map fun p => ([.instruction p.1.1 p.1.2], p.2)
  | u => (readElement? keep scope fuel u).map fun p => ([p.1], p.2)

/-- Content after a run of characters: it ends there, or goes on behind some markup. -/
def readTurn? (keep : Bool) (scope : Spaces) (fuel : Nat) : Text → Option (List Node × Text)
  | '<' :: '/' :: rest => some ([], rest)
  | '<' :: u => (readMarkup? keep scope fuel u).bind fun m =>
      (readContent? keep scope fuel m.2).map fun p => (m.1 ++ p.1, p.2)
  | _ => none

theorem readContent?_succ : readContent? keep scope (fuel + 1) s =
    (readChars? (s.length + 1) s).bind fun p =>
      (readTurn? keep scope fuel p.2).map fun q => (.text p.1 :: q.1, q.2) := by
  rw [readContent?]
  cases readChars? (s.length + 1) s with
  | none => rfl
  | some p =>
    obtain ⟨chars, t⟩ := p
    dsimp only [Option.bind_some]
    split
    · rw [readTurn?, Option.map_some]
    · next _ u =>
      rw [readTurn?, readMarkup?, Option.map_bind, Option.bind_map]
      · cases readComment? u <;> simp [Function.comp_def]
      · exact fun rest h => by cases h
    · next _ u =>
      rw [readTurn?, readMarkup?, Option.map_bind, Option.bind_map]
      · cases readInstruction? u <;> simp [Function.comp_def]
      · exact fun rest h => by cases h
    · next u hend hcomment hinstruction =>
      rw [readTurn?, readMarkup?, Option.map_bind, Option.bind_map]
      · cases readElement? keep scope fuel u <;> simp [Function.comp_def]
      · exact hcomment
      · exact hinstruction
      · exact hend
    · next hend _ _ hother =>
      rw [readTurn?, Option.map_none]
      · exact hend
      · exact hother

theorem readElement?_name {p : Node × Text} (h : readElement? keep scope fuel s = some p) :
    ∃ c t, s = c :: t ∧ isNameStart c = true := by
  cases fuel with
  | zero =>
    rw [readElement?] at h
    cases h
  | succ fuel =>
    rw [readElement?_succ] at h
    obtain ⟨q, hq, -⟩ := Option.bind_eq_some_iff.1 h
    exact readTag?_name hq

theorem readMarkup?_of_name {c : Char} (hc : isNameStart c = true) (s : Text) :
    readMarkup? keep scope fuel (c :: s) =
      (readElement? keep scope fuel (c :: s)).map fun p => ([p.1], p.2) := by
  rw [readMarkup?]
  · exact fun u h => ne_of_isNameStart hc (by decide) (List.cons.inj h).1
  · exact fun u h => ne_of_isNameStart hc (by decide) (List.cons.inj h).1

/-! ## What is taken off a text -/

/-- What is taken off a text is taken off every longer one, with enough rounds. -/
structure Taken {α : Type} (read : Nat → Text → Option (α × Text)) (s : Text) (a : α)
    (rest : Text) : Prop where
  shorter : rest.length < s.length
  append : ∀ z fuel, (s ++ z).length < fuel → read fuel (s ++ z) = some (a, rest ++ z)

theorem Taken.same {α : Type} {read : Nat → Text → Option (α × Text)} {a : α}
    (h : Taken read s a rest) {fuel : Nat} (hfuel : s.length < fuel) :
    read fuel s = some (a, rest) := by
  have hread := h.append [] fuel (by rwa [List.append_nil])
  rwa [List.append_nil, List.append_nil] at hread

/-- What the readers take with so many rounds. -/
structure Takes (keep : Bool) (fuel : Nat) : Prop where
  element : ∀ {scope s n rest}, readElement? keep scope fuel s = some (n, rest) →
    Taken (readElement? keep scope) s n rest
  content : ∀ {scope s ns rest}, readContent? keep scope fuel s = some (ns, rest) →
    Taken (readContent? keep scope) s ns rest

theorem Takes.from (h : Takes keep fuel) {g : Tag} {n : Node}
    (hread : readFrom? keep fuel g s = some (n, rest)) :
    Taken (fun fuel => readFrom? keep fuel g) s n rest := by
  unfold readFrom? at hread
  split at hread
  · cases hread
    exact ⟨by simp only [List.length_cons]; omega, fun z fuel _ => by simp [readFrom?]⟩
  · next t =>
    obtain ⟨c, hcontent, hread⟩ := Option.bind_eq_some_iff.1 hread
    obtain ⟨u, hend, he⟩ := Option.map_eq_some_iff.1 hread
    obtain ⟨rfl, rfl⟩ := Prod.mk.inj he
    have hinside := h.content hcontent
    have hlonger := endTag?_append hend
    have hshorter := hinside.shorter
    refine ⟨?_, fun z fuel hfuel => ?_⟩
    · have := (hlonger []).1
      rw [List.length_cons]
      omega
    · rw [List.cons_append, List.length_cons] at hfuel
      rw [List.cons_append, readFrom?, hinside.append z fuel (by omega), Option.bind_some,
        (hlonger z).2]
      rfl
  · cases hread

theorem Takes.markup (h : Takes keep fuel) {m : List Node}
    (hread : readMarkup? keep scope fuel s = some (m, rest)) :
    Taken (readMarkup? keep scope) s m rest := by
  unfold readMarkup? at hread
  split at hread
  · obtain ⟨p, hp, he⟩ := Option.map_eq_some_iff.1 hread
    obtain ⟨rfl, rfl⟩ := Prod.mk.inj he
    have hcomment := readComment?_append hp
    refine ⟨?_, fun z fuel _ => ?_⟩
    · have := (hcomment []).1
      simp only [List.length_cons]
      omega
    · simp only [List.cons_append, readMarkup?, (hcomment z).2, Option.map_some]
  · obtain ⟨p, hp, he⟩ := Option.map_eq_some_iff.1 hread
    obtain ⟨rfl, rfl⟩ := Prod.mk.inj he
    have hinstruction := readInstruction?_append hp
    refine ⟨?_, fun z fuel _ => ?_⟩
    · have := (hinstruction []).1
      simp only [List.length_cons]
      omega
    · simp only [List.cons_append, readMarkup?, (hinstruction z).2, Option.map_some]
  · obtain ⟨p, hp, he⟩ := Option.map_eq_some_iff.1 hread
    obtain ⟨rfl, rfl⟩ := Prod.mk.inj he
    obtain ⟨c, t, rfl, hc⟩ := readElement?_name hp
    have helement := h.element hp
    refine ⟨helement.shorter, fun z fuel hfuel => ?_⟩
    have hread := helement.append z fuel hfuel
    rw [List.cons_append] at hread ⊢
    rw [readMarkup?_of_name hc, hread]
    rfl

/-- Markup is neither an end tag nor a marked section, whatever follows. -/
theorem readMarkup?_start {p : List Node × Text} (h : readMarkup? keep scope fuel s = some p)
    (z : Text) : (s ++ z).head? ≠ some '/' ∧ AtMarkup ('<' :: (s ++ z)) := by
  unfold readMarkup? at h
  split at h
  · exact ⟨by simp, atMarkup_cons (by simp [after?])⟩
  · exact ⟨by simp, atMarkup_cons (by simp [after?])⟩
  · obtain ⟨p, hp, -⟩ := Option.map_eq_some_iff.1 h
    obtain ⟨c, t, rfl, hc⟩ := readElement?_name hp
    have hne : c ≠ '/' := ne_of_isNameStart hc (by decide)
    exact ⟨by simpa using hne, atMarkup_of_name hc (t ++ z)⟩

theorem readTurn?_markup (hs : s.head? ≠ some '/') :
    readTurn? keep scope fuel ('<' :: s) = (readMarkup? keep scope fuel s).bind fun m =>
      (readContent? keep scope fuel m.2).map fun p => (m.1 ++ p.1, p.2) := by
  rw [readTurn?]
  rintro u rfl
  exact hs rfl

/-- Content that goes on stands at some markup, whatever follows. -/
theorem atMarkup_of_turn {ns : List Node} (h : readTurn? keep scope fuel s = some (ns, rest))
    (z : Text) : AtMarkup (s ++ z) := by
  unfold readTurn? at h
  split at h
  · exact atMarkup_cons (by simp [after?])
  · obtain ⟨m, hm, -⟩ := Option.bind_eq_some_iff.1 h
    exact (readMarkup?_start hm z).2
  · cases h

/-- A turn takes the `<` before the next round. -/
theorem Takes.turn (h : Takes keep fuel) {ns : List Node}
    (hread : readTurn? keep scope fuel s = some (ns, rest)) :
    rest.length < s.length ∧ ∀ z fuel, (s ++ z).length ≤ fuel →
      readTurn? keep scope fuel (s ++ z) = some (ns, rest ++ z) := by
  unfold readTurn? at hread
  split at hread
  · cases hread
    exact ⟨by simp only [List.length_cons]; omega, fun z fuel _ => by simp [readTurn?]⟩
  · next u hend =>
    obtain ⟨m, hm, hread⟩ := Option.bind_eq_some_iff.1 hread
    obtain ⟨p, hp, he⟩ := Option.map_eq_some_iff.1 hread
    obtain ⟨rfl, rfl⟩ := Prod.mk.inj he
    have hmarkup := h.markup hm
    have hcontent := h.content hp
    have hshorter := hmarkup.shorter
    have hshorter' := hcontent.shorter
    refine ⟨by rw [List.length_cons]; omega, fun z fuel hfuel => ?_⟩
    have hroom : (u ++ z).length < fuel ∧ (m.2 ++ z).length < fuel := by
      simp only [List.cons_append, List.length_cons, List.length_append] at hfuel ⊢
      omega
    rw [List.cons_append, readTurn?_markup (readMarkup?_start hm z).1,
      hmarkup.append z fuel hroom.1, Option.bind_some, hcontent.append z fuel hroom.2]
    rfl
  · cases hread

/-- **What a reader takes** does not depend on what follows, nor on the number of rounds. -/
theorem takes (keep : Bool) (fuel : Nat) : Takes keep fuel := by
  -- Elements and content are taken together, as each is read with one round less of the other.
  induction fuel with
  | zero =>
    constructor
    · intro scope s n rest h
      rw [readElement?] at h
      cases h
    · intro scope s ns rest h
      rw [readContent?] at h
      cases h
  | succ fuel ih =>
    constructor
    · intro scope s n rest h
      rw [readElement?_succ] at h
      obtain ⟨p, hp, h⟩ := Option.bind_eq_some_iff.1 h
      have htag := readTag?_append hp
      have hfrom := ih.from h
      have hshorter := (htag []).2.1
      have hshorter' := hfrom.shorter
      refine ⟨by omega, fun z fuel' hfuel => ?_⟩
      obtain ⟨fuel', rfl⟩ : ∃ n, fuel' = n + 1 := ⟨fuel' - 1, by omega⟩
      have hroom : (p.2 ++ z).length < fuel' := by
        rw [List.length_append] at hfuel ⊢
        omega
      rw [readElement?_succ, (htag z).2.2]
      exact hfrom.append z fuel' hroom
    · intro scope s ns rest h
      rw [readContent?_succ] at h
      obtain ⟨p, hp, h⟩ := Option.bind_eq_some_iff.1 h
      obtain ⟨q, hq, he⟩ := Option.map_eq_some_iff.1 h
      obtain ⟨rfl, rfl⟩ := Prod.mk.inj he
      have hmarkup := atMarkup_of_turn hq
      have hturn := ih.turn hq
      have hshorter := hturn.1
      have hne : p.2 ≠ [] := fun e => by rw [e] at hshorter; exact absurd hshorter (by simp)
      have hsuffix := (suffix_readChars? hp).length_le
      refine ⟨by omega, fun z fuel' hfuel => ?_⟩
      obtain ⟨fuel', rfl⟩ : ∃ n, fuel' = n + 1 := ⟨fuel' - 1, by omega⟩
      have hroom : (p.2 ++ z).length ≤ fuel' := by
        rw [List.length_append] at hfuel ⊢
        omega
      rw [readContent?_succ, readChars?_append hp hne (hmarkup z) (Nat.lt_succ_self _),
        Option.bind_some, hturn.2 z fuel' hroom]
      rfl

/-! ## Readers with as many rounds as they need -/

def chars? (s : Text) : Option (Text × Text) := readChars? (s.length + 1) s

def content? (keep : Bool) (scope : Spaces) (s : Text) : Option (List Node × Text) :=
  readContent? keep scope (s.length + 1) s

def element? (keep : Bool) (scope : Spaces) (s : Text) : Option (Node × Text) :=
  readElement? keep scope (s.length + 1) s

def markup? (keep : Bool) (scope : Spaces) (s : Text) : Option (List Node × Text) :=
  readMarkup? keep scope (s.length + 1) s

def turn? (keep : Bool) (scope : Spaces) (s : Text) : Option (List Node × Text) :=
  readTurn? keep scope s.length s

/-- Two numbers of rounds that both suffice give the same. -/
theorem eq_of_enough {α : Type} (read : Nat → Option α) (enough : Nat → Prop)
    (h : ∀ {n m p}, read n = some p → enough m → read m = some p) {n m : Nat} (hn : enough n)
    (hm : enough m) : read n = read m :=
  Option.ext fun _ => ⟨fun hp => h hp hm, fun hp => h hp hn⟩

theorem readContent?_eq (h : s.length < fuel) :
    readContent? keep scope fuel s = content? keep scope s :=
  eq_of_enough (readContent? keep scope · s) (s.length < ·)
    (fun hread => ((takes keep _).content hread).same) h (Nat.lt_succ_self _)

theorem readElement?_eq (h : s.length < fuel) :
    readElement? keep scope fuel s = element? keep scope s :=
  eq_of_enough (readElement? keep scope · s) (s.length < ·)
    (fun hread => ((takes keep _).element hread).same) h (Nat.lt_succ_self _)

theorem readTurn?_eq (h : s.length ≤ fuel) :
    readTurn? keep scope fuel s = turn? keep scope s := by
  refine eq_of_enough (readTurn? keep scope · s) (s.length ≤ ·) ?_ h (Nat.le_refl _)
  intro n m p hread hm
  have hturn := ((takes keep n).turn hread).2 [] m (by rwa [List.append_nil])
  rwa [List.append_nil, List.append_nil] at hturn

theorem content?_append {ns : List Node} (h : content? keep scope s = some (ns, rest)) (z : Text) :
    content? keep scope (s ++ z) = some (ns, rest ++ z) :=
  ((takes keep _).content h).append z _ (Nat.lt_succ_self _)

/-- Content is a run of characters and a turn. -/
theorem content?_eq (keep : Bool) (scope : Spaces) (s : Text) :
    content? keep scope s =
      (chars? s).bind fun p => (turn? keep scope p.2).map fun q => (.text p.1 :: q.1, q.2) := by
  unfold content?
  rw [readContent?_succ]
  unfold chars?
  cases hp : readChars? (s.length + 1) s with
  | none => rfl
  | some p => exact congrArg (Option.map _) (readTurn?_eq (suffix_readChars? hp).length_le)

/-- Markup that is read as a whole goes before the content behind it. -/
theorem turn?_markup {ns : List Node} (h : markup? keep scope s = some (ns, [])) (z : Text) :
    turn? keep scope ('<' :: (s ++ z)) =
      (content? keep scope z).map fun q => (ns ++ q.1, q.2) := by
  have hmarkup := ((takes keep _).markup h).append z _ (Nat.lt_succ_self _)
  have hroom : z.length < (s ++ z).length + 1 := by
    rw [List.length_append]
    omega
  rw [turn?, List.length_cons, readTurn?_markup (readMarkup?_start h z).1, hmarkup,
    Option.bind_some, List.nil_append, readContent?_eq hroom]

/-- An element behind a start tag is the content and the end tag. -/
theorem element?_open {g : Tag} (h : readTag? scope s = some (g, ['>'])) (z : Text) :
    element? keep scope (s ++ z) = (content? keep g.inside z).bind fun c =>
      (endTag? g.written c.2).map fun w => (g.element (joinTexts c.1), w) := by
  have htag := (readTag?_append h z).2
  have hroom : z.length < (s ++ z).length := by
    have := htag.1
    rw [List.length_append]
    omega
  rw [element?, readElement?_succ, htag.2, Option.bind_some]
  show readFrom? keep _ g ('>' :: z) = _
  rw [readFrom?, readContent?_eq hroom]

/-- An element goes before the content behind it. -/
theorem turn?_element {c : Char} (hc : isNameStart c = true) (s : Text) :
    turn? keep scope ('<' :: c :: s) = (element? keep scope (c :: s)).bind fun e =>
      (content? keep scope e.2).map fun q => (e.1 :: q.1, q.2) := by
  have hstart : (c :: s).head? ≠ some '/' := by
    simpa using ne_of_isNameStart hc (d := '/') (by decide)
  rw [turn?, List.length_cons, readTurn?_markup hstart, readMarkup?_of_name hc,
    readElement?_eq (Nat.lt_succ_self _)]
  cases hread : element? keep scope (c :: s) with
  | none => rfl
  | some e =>
    have hshorter := ((takes keep _).element hread).shorter
    have hroom : e.2.length < (c :: s).length + 1 := Nat.lt_succ_of_lt hshorter
    dsimp only [Option.map_some, Option.bind_some]
    rw [readContent?_eq hroom]
    rfl

end Crosswalk.Xml
