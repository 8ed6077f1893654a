import Crosswalk.Proofs.Template.Rounds

/-!
# Reading a layout

The three forms of placeholders read a layout segment by segment. Queries are looked for in the
pattern itself, references once the queries are hidden, expressions once both are:

    readings replacementForm l.text = the queried tokens of l                (readings_replacements)
    readings referenceForm (l.write f f.expression) = the other tokens of l      (readings_references)
    readings expressionForm (l.write f f.expression) = the expressions of l     (readings_expressions)

Each form opens with double braces, so a text where none open is passed over.
-/

namespace Crosswalk.Template

open Text

/-! ## Reading a part -/

/-- In any text, a form reads `vs` in `u` and then what follows. -/
def Reads (form : Form Text) (u : Text) (vs : List Text) : Prop :=
  ∀ rest, readings form (u ++ rest) = vs ++ readings form rest

/-- In any text, `v` is left of `u` without what the form reads. -/
def Erases (form : Form Text) (u v : Text) : Prop :=
  ∀ rest, erase form (u ++ rest) = v ++ erase form rest

variable {form : Form Text} {u v : Text} {vs : List Text}

theorem Reads.append {u' : Text} {vs' : List Text} (h : Reads form u vs) (h' : Reads form u' vs') :
    Reads form (u ++ u') (vs ++ vs') := by
  intro rest
  rw [List.append_assoc, h, h', List.append_assoc]

theorem Erases.append {u' v' : Text} (h : Erases form u v) (h' : Erases form u' v') :
    Erases form (u ++ u') (v ++ v') := by
  intro rest
  rw [List.append_assoc, h, h', List.append_assoc]

theorem Reads.flatMap {α : Type} {l : List α} {f : α → Text} {g : α → List Text}
    (h : ∀ x ∈ l, Reads form (f x) (g x)) : Reads form (l.flatMap f) (l.flatMap g) := by
  induction l with
  | nil => exact fun rest => rfl
  | cons x l ih =>
    rw [List.flatMap_cons, List.flatMap_cons]
    exact (h x List.mem_cons_self).append (ih fun y hy => h y (List.mem_cons_of_mem x hy))

theorem Erases.flatMap {α : Type} {l : List α} {f g : α → Text}
    (h : ∀ x ∈ l, Erases form (f x) (g x)) : Erases form (l.flatMap f) (l.flatMap g) := by
  induction l with
  | nil => exact fun rest => rfl
  | cons x l ih =>
    rw [List.flatMap_cons, List.flatMap_cons]
    exact (h x List.mem_cons_self).append (ih fun y hy => h y (List.mem_cons_of_mem x hy))

theorem Reads.readings (h : Reads form u vs) : readings form u = vs := by
  have := h []
  rw [List.append_nil] at this
  rw [this]
  exact List.append_nil vs

theorem Erases.erase (h : Erases form u v) : erase form u = v := by
  have := h []
  rw [List.append_nil] at this
  rw [this]
  exact List.append_nil v

theorem reads_quiet (h : ∀ rest, Quiet (reads form) u rest) : Reads form u [] := by
  intro rest
  unfold Text.readings
  rw [pieces_quiet (h rest), List.filterMap_append, found?_char]

theorem reads_found (hu : u ≠ []) (h : ∀ rest, form (u ++ rest) = some (v, u.length)) :
    Reads form u [v] := by
  intro rest
  unfold Text.readings
  rw [pieces_found hu (h rest)]
  rfl

theorem erases_quiet (h : ∀ rest, Quiet (reads form) u rest) : Erases form u u := by
  intro rest
  unfold Text.erase substitute
  rw [pieces_quiet (h rest), List.flatMap_append, List.flatMap_map]
  exact congrArg (· ++ _) (List.flatMap_singleton' u)

theorem erases_found (hu : u ≠ []) (h : ∀ rest, form (u ++ rest) = some (v, u.length)) :
    Erases form u [] := by
  intro rest
  unfold Text.erase substitute
  rw [pieces_found hu (h rest)]
  rfl

/-! ## Forms that open with double braces -/

/-- A form that reads nothing but at double braces. -/
def Opens (form : Form Text) : Prop :=
  ∀ s, reads form s = true → startsWith openMark s = true

theorem opens_formOf {length? : Text → Option Nat}
    (h : ∀ s, (length? s).isSome = true → startsWith openMark s = true) :
    Opens (formOf length?) := by
  intro s hs
  refine h s ?_
  unfold reads formOf at hs
  rwa [Option.isSome_map] at hs

theorem startsWith_of_after? {mark s : Text} {β : Type} {f : Text → Option β}
    (h : ((after? mark s).bind f).isSome = true) : startsWith mark s = true := by
  unfold startsWith
  cases ha : after? mark s with
  | none => rw [ha] at h; exact h
  | some t => rfl

theorem startsWith_spacedOpen {s : Text} (h : startsWith spacedOpen s = true) :
    startsWith openMark s = true :=
  startsWith_of_append (a := openMark) (b := [' ']) h

theorem opens_referenceForm : Opens referenceForm :=
  opens_formOf fun _ hs => startsWith_spacedOpen (startsWith_of_after? hs)

theorem opens_expressionForm : Opens expressionForm :=
  opens_formOf fun _ hs => startsWith_spacedOpen (startsWith_of_after? hs)

theorem ProperName.value : ProperName "value" := by decide

theorem ProperName.label : ProperName "label" := by decide

theorem ProperName.list : ProperName "list" := by decide

/-- The reserved tokens are references. -/
theorem reserved_eq {token : Text} (h : token ∈ reservedTokens) :
    ∃ name, ProperName name ∧ token = reference name := by
  simp only [reservedTokens, List.mem_cons, List.not_mem_nil, or_false] at h
  rcases h with rfl | rfl | rfl
  · exact ⟨_, ProperName.value, rfl⟩
  · exact ⟨_, ProperName.label, rfl⟩
  · exact ⟨_, ProperName.list, rfl⟩

theorem reservedLength?_eq_none {s : Text}
    (h : ∀ token ∈ reservedTokens, startsWith token s = false) : reservedLength? s = none := by
  unfold reservedLength?
  rw [List.find?_eq_none.2 fun token ht => by rw [h token ht]; decide]
  rfl

theorem startsWith_reference {name s : Text} (h : startsWith (reference name) s = true) :
    startsWith openMark s = true := by
  rw [reference_eq_braced] at h
  exact startsWith_open_of_braced h

theorem opens_replacementForm : Opens replacementForm := by
  refine opens_formOf fun s hs => ?_
  cases ho : startsWith openMark s with
  | true => rfl
  | false =>
    unfold replacementLength? at hs
    rw [reservedLength?_eq_none, after?_eq_none.2 ho] at hs
    · exact hs
    · intro token ht
      obtain ⟨name, _, rfl⟩ := reserved_eq ht
      cases hr : startsWith (reference name) s with
      | false => rfl
      | true => rw [← ho, startsWith_reference hr]

theorem reads_of_quiet (hf : Opens form) (h : ∀ rest, Quiet (startsWith openMark) u rest) :
    Reads form u [] :=
  reads_quiet fun rest => (h rest).mono hf

theorem erases_of_quiet (hf : Opens form) (h : ∀ rest, Quiet (startsWith openMark) u rest) :
    Erases form u u :=
  erases_quiet fun rest => (h rest).mono hf

/-- A token that is not read at its head is not read at all. -/
theorem reads_unread_token {t : Token} (ht : t.Proper) (hf : Opens form)
    (h : ∀ rest, reads form (t.text ++ rest) = false) : Reads form t.text [] :=
  reads_quiet fun rest => ⟨h rest, (ht.quiet_tail rest).mono hf⟩

/-- An expression that is not read at its head is read by its tokens. -/
theorem reads_unread_chain {c : Chain} (hc : c.Proper) (hf : Opens form) {f : Token → Text}
    (h : ∀ rest, reads form (c.expression f ++ rest) = false) {g : Token → List Text}
    (ht : ∀ t ∈ c.tokens, Reads form (f t) (g t)) :
    Reads form (c.expression f) (c.tokens.flatMap g) := by
  have htexts : ∀ s ∈ c.texts, Reads form s [] :=
    fun s hs => reads_of_quiet hf (quiet_open (hc.opens s hs))
  have hwrite : Reads form (c.write f) (c.tokens.flatMap g) := by
    have hrest : Reads form (c.rest.flatMap fun p => f p.1 ++ p.2) (c.rest.flatMap fun p => g p.1) :=
      .flatMap fun p hp => by
        have := (ht p.1 (List.mem_map_of_mem hp)).append
          (htexts p.2 (List.mem_cons_of_mem _ (List.mem_map_of_mem hp)))
        rwa [List.append_nil] at this
    have := (htexts _ List.mem_cons_self).append hrest
    unfold Chain.tokens Chain.write
    rwa [List.flatMap_map]
  have hopen : Reads form ['{', ' '] [] :=
    reads_of_quiet hf fun rest => quiet_open (by decide) rest
  have hclose : Reads form spacedClose [] := reads_of_quiet hf quiet_spacedClose
  have htail := (hopen.append hwrite).append hclose
  intro rest
  have hcons : c.expression f ++ rest = '{' :: (['{', ' '] ++ c.write f ++ spacedClose ++ rest) := by
    simp [Chain.expression, spacedOpen]
  have hhead := h rest
  have := htail rest
  unfold Text.readings at this ⊢
  rw [hcons] at hhead ⊢
  rw [pieces_cons hhead, List.filterMap_cons_none rfl, this, List.nil_append, List.append_nil]

/-! ## Chains are no names -/

theorem Chain.mem_write {c : Chain} {s : Text} (hs : s ∈ c.texts) {ch : Char} (h : ch ∈ s)
    (f : Token → Text) : ch ∈ c.write f := by
  unfold Chain.texts at hs
  unfold Chain.write
  rcases List.mem_cons.1 hs with rfl | hs
  · exact List.mem_append_left _ h
  · obtain ⟨p, hp, rfl⟩ := List.mem_map.1 hs
    refine List.mem_append_right _ (List.mem_flatMap.2 ⟨p, hp, ?_⟩)
    exact List.mem_append_right _ h

theorem Chain.Proper.write_ne_name {c : Chain} (hc : c.Proper) (f : Token → Text) {name : Text}
    (h : ∀ ch ∈ name, isWord ch = true) : c.write f ≠ name := by
  intro e
  obtain ⟨s, hs, hall⟩ := hc.more
  obtain ⟨ch, hch, hw⟩ := List.all_eq_false.1 hall
  exact hw (h ch (e ▸ Chain.mem_write hs hch f))

theorem Chain.Proper.write_ne_nil {c : Chain} (hc : c.Proper) (f : Token → Text) :
    c.write f ≠ [] :=
  hc.write_ne_name f fun _ h => absurd h List.not_mem_nil

/-- No reference stands at the head of an expression. -/
theorem Chain.Proper.startsWith_reference {c : Chain} (hc : c.Proper) {f : Token → Text}
    (hf : ∀ t ∈ c.tokens, Paired (f t)) {name : Text} (h : ProperName name) (rest : Text) :
    startsWith (reference name) (c.expression f ++ rest) = false := by
  rw [reference_eq_braced, Chain.expression_eq_braced]
  refine startsWith_braced (Token.Proper.paired (t := .named name) h) (hc.paired_inside hf) ?_
  intro e
  have := List.append_cancel_right (List.cons.inj e).2
  exact hc.write_ne_name f h.word this.symm

/-! ## Queries -/

/-- Of two references, one stands at the head of the other only if they are equal. -/
theorem startsWith_reference_ne {name name' : Text} (h : ProperName name) (h' : ProperName name')
    (hne : reference name ≠ reference name') (rest : Text) :
    startsWith (reference name) (reference name' ++ rest) = false := by
  rw [reference_eq_braced, reference_eq_braced name'] at hne ⊢
  exact startsWith_braced (Token.Proper.paired (t := .named name) h)
    (Token.Proper.paired (t := .named name') h') fun e => hne (congrArg braced e)

theorem reservedLength?_of_mem {token : Text} (h : token ∈ reservedTokens) (rest : Text) :
    reservedLength? (token ++ rest) = some token.length := by
  obtain ⟨name, hn, rfl⟩ := reserved_eq h
  unfold reservedLength?
  cases hf : reservedTokens.find? fun token => startsWith token (reference name ++ rest) with
  | none =>
    have := List.find?_eq_none.1 hf _ h
    exact absurd (startsWith_append _ _) this
  | some other =>
    have hs := List.find?_some hf
    obtain ⟨name', hn', rfl⟩ := reserved_eq (List.mem_of_find?_eq_some hf)
    by_cases e : reference name' = reference name
    · rw [e]
      rfl
    · rw [startsWith_reference_ne hn' hn e rest] at hs
      cases hs

/-- After double braces and a blank only a reserved token is read. -/
theorem replacementLength?_blank (s : Text) :
    replacementLength? (spacedOpen ++ s) = reservedLength? (spacedOpen ++ s) := by
  unfold replacementLength?
  cases reservedLength? (spacedOpen ++ s) with
  | some n => rfl
  | none => rfl

theorem reads_replacement_blank {s : Text} (h : reservedLength? (spacedOpen ++ s) = none) :
    reads replacementForm (spacedOpen ++ s) = false := by
  unfold reads replacementForm formOf
  rw [replacementLength?_blank, h]
  rfl

theorem tightLength?_path {path rest : Text} (hne : path ≠ [])
    (hq : Quiet (startsWith closeMark) path (closeMark ++ rest))
    (hb : ∀ c ∈ path, isBlank c = false) :
    tightLength? (path ++ (closeMark ++ rest)) = some path.length := by
  induction path with
  | nil => exact absurd rfl hne
  | cons c s ih =>
    rw [List.cons_append, tightLength?, hb c List.mem_cons_self]
    cases s with
    | nil => rfl
    | cons d s =>
      have := ih (List.cons_ne_nil d s) hq.2 fun e he => hb e (List.mem_cons_of_mem c he)
      rw [this, show startsWith closeMark (d :: s ++ (closeMark ++ rest)) = false from hq.2.1]
      rfl

theorem tightLength?_blank {path rest : Text}
    (hq : Quiet (startsWith closeMark) path (closeMark ++ rest))
    (hb : ∃ c ∈ path, isBlank c = true) : tightLength? (path ++ (closeMark ++ rest)) = none := by
  induction path with
  | nil =>
    obtain ⟨c, hc, _⟩ := hb
    cases hc
  | cons c s ih =>
    rw [List.cons_append, tightLength?]
    split
    · rfl
    · next hc =>
      obtain ⟨d, hd, hbd⟩ := hb
      rcases List.mem_cons.1 hd with rfl | hd
      · exact absurd hbd hc
      · rw [ih hq.2 ⟨d, hd, hbd⟩]
        cases s with
        | nil => cases hd
        | cons e s =>
          rw [show startsWith closeMark (e :: s ++ (closeMark ++ rest)) = false from hq.2.1]
          rfl

theorem looseTail?_path {s rest : Text} {c : Char} (hc : isBlank c = false) (hl : '\n' ∉ s)
    (hq : Quiet (startsWith closeMark) (s ++ [c]) (closeMark ++ rest)) :
    looseTail? (s ++ [c] ++ (closeMark ++ rest)) = some (s.length + 1) := by
  induction s with
  | nil =>
    show looseTail? (c :: (closeMark ++ rest)) = _
    rw [looseTail?, hc, startsWith_append]
    rfl
  | cons d s ih =>
    have hs : startsWith closeMark (s ++ [c] ++ (closeMark ++ rest)) = false := by
      cases s with
      | nil => exact hq.2.1
      | cons e s => exact hq.2.1
    have hd : d ≠ '\n' := fun e => hl (e ▸ List.mem_cons_self)
    rw [List.cons_append, List.cons_append, looseTail?, hs, Bool.and_false, if_neg (by decide),
      if_neg hd, ih (fun h => hl (List.mem_cons_of_mem d h)) hq.2]
    rfl

/-- A path is read up to the braces that close it. -/
theorem ProperPath.replacementLength? {path : Text} (h : ProperPath path) (rest : Text) :
    replacementLength? (braced path ++ rest) = some (path.length + 4) := by
  have hq : Quiet (startsWith closeMark) path (closeMark ++ rest) := quiet_double h.closes _
  obtain ⟨c, s, hcs, hc⟩ := h.first_eq
  have hreserved : reservedLength? (braced path ++ rest) = none := by
    refine reservedLength?_eq_none fun token ht => ?_
    obtain ⟨name, hn, rfl⟩ := reserved_eq ht
    rw [reference_eq_braced]
    refine startsWith_braced (Token.Proper.paired (t := .named name) hn) h.paired fun e => ?_
    rw [hcs] at e
    rw [← (List.cons.inj e).1] at hc
    revert hc
    decide
  have hafter : after? openMark (braced path ++ rest) = some (path ++ (closeMark ++ rest)) :=
    after?_eq_some.2 (by simp [braced, openMark, closeMark])
  unfold Template.replacementLength?
  simp only [hreserved, hafter, Option.bind_some]
  by_cases hb : ∃ c ∈ path, isBlank c = true
  · obtain ⟨s', d, hsd, hd⟩ := h.last_eq
    have hloose : looseLength? (path ++ (closeMark ++ rest)) = some path.length := by
      cases s' with
      | nil =>
        obtain ⟨e, he, hbe⟩ := hb
        rw [hsd] at he
        rw [List.mem_singleton.1 he, hd] at hbe
        cases hbe
      | cons e s' =>
        have he : e = c := (List.cons.inj (hsd.symm.trans hcs)).1
        have hl : '\n' ∉ s' := fun hm => h.line (by rw [hsd]; simp [hm])
        rw [hsd] at hq ⊢
        rw [List.cons_append, List.cons_append, looseLength?, he, hc,
          looseTail?_path hd hl hq.2]
        simp
    rw [tightLength?_blank hq hb, hloose]
    rfl
  · have hb' : ∀ c ∈ path, isBlank c = false := fun c hc => by
      cases hbc : isBlank c with
      | false => rfl
      | true => exact absurd ⟨c, hc, hbc⟩ hb
    have hne : path ≠ [] := by
      rw [hcs]
      exact List.cons_ne_nil c s
    rw [tightLength?_path hne hq hb']

theorem formOf_append {length? : Text → Option Nat} {rest : Text}
    (h : length? (u ++ rest) = some u.length) : formOf length? (u ++ rest) = some (u, u.length) := by
  unfold formOf
  rw [h, Option.map_some, List.take_left]

theorem length_reference (name : Text) : (reference name).length = name.length + 6 := by
  simp [reference, spacedOpen, spacedClose]

/-- What the form of replacements reads in a token. -/
def Token.replacement (t : Token) : List Text := if t.isQueried then [t.text] else []

theorem reads_replacement {t : Token} (ht : t.Proper) :
    Reads replacementForm t.text t.replacement := by
  unfold Token.replacement
  cases t with
  | query path =>
    refine reads_found (braced_ne_nil _) fun rest => formOf_append ?_
    rw [Token.text_query, length_braced]
    exact ProperPath.replacementLength? ht rest
  | named name =>
    cases hr : reservedTokens.elem (reference name) with
    | true =>
      rw [show Token.isQueried (.named name) = true from hr, if_pos rfl]
      refine reads_found (braced_ne_nil _) fun rest => formOf_append ?_
      rw [Token.text_named]
      have hm := List.elem_iff.1 hr
      have hlen := reservedLength?_of_mem hm rest
      rw [← hlen]
      unfold reference
      rw [List.append_assoc, List.append_assoc]
      exact replacementLength?_blank _
    | false =>
      rw [show Token.isQueried (.named name) = false from hr, if_neg (by decide)]
      refine reads_unread_token ht opens_replacementForm fun rest => ?_
      have hnone : reservedLength? (reference name ++ rest) = none :=
        reservedLength?_eq_none fun token hm => by
          obtain ⟨name', hn', rfl⟩ := reserved_eq hm
          refine startsWith_reference_ne hn' ht (fun e => ?_) rest
          rw [e, ← List.elem_iff, hr] at hm
          cases hm
      rw [Token.text_named]
      unfold reference at hnone ⊢
      rw [List.append_assoc, List.append_assoc] at hnone ⊢
      exact reads_replacement_blank hnone

/-- **Queries are read.** The replacements of a pattern are its queried tokens. -/
theorem readings_replacements {l : Layout} (hl : ∀ seg ∈ l, seg.Proper) :
    readings replacementForm l.text = l.tokens.flatMap Token.replacement := by
  unfold Layout.tokens
  rw [List.flatMap_assoc]
  refine Reads.readings (.flatMap fun seg hs => ?_)
  have hp := hl seg hs
  cases seg with
  | literal s => exact reads_of_quiet opens_replacementForm (Bare.quiet_open hp)
  | token t =>
    have := reads_replacement (hp.tokens t (List.mem_singleton.2 rfl))
    simpa [Segment.write, Segment.tokens] using this
  | chain c =>
    have hc : c.Proper := hp
    have hbal : ∀ t ∈ c.tokens, Paired t.text := fun t ht =>
      Filled.paired (f := Token.text) (hc.tokens t ht) (Or.inl rfl)
    refine reads_unread_chain hc opens_replacementForm (fun rest => ?_) fun t ht =>
      reads_replacement (hc.tokens t ht)
    have hnone : reservedLength? (c.expression Token.text ++ rest) = none :=
      reservedLength?_eq_none fun token hm => by
        obtain ⟨name, hn, rfl⟩ := reserved_eq hm
        exact hc.startsWith_reference hbal hn rest
    unfold Chain.expression at hnone ⊢
    rw [List.append_assoc, List.append_assoc] at hnone ⊢
    exact reads_replacement_blank hnone

/-! ## References -/

theorem referenceLength?_reference {name : Text} (h : ProperName name) (rest : Text) :
    referenceLength? (reference name ++ rest) = some (name.length + 6) := by
  have hafter : after? spacedOpen (reference name ++ rest) = some (name ++ (spacedClose ++ rest)) :=
    after?_eq_some.2 (by simp [reference])
  have htake : (name ++ (spacedClose ++ rest)).takeWhile isWord = name := by
    rw [List.takeWhile_append_of_pos h.word]
    exact List.append_nil name
  have hdrop : (name ++ (spacedClose ++ rest)).dropWhile isWord = spacedClose ++ rest := by
    rw [List.dropWhile_append_of_pos h.word]
    rfl
  unfold referenceLength?
  simp only [hafter, Option.bind_some, htake, hdrop, startsWith_append]
  rw [if_pos ⟨h.nonempty, trivial⟩]

/-- A reference is read only where one stands. -/
theorem startsWith_of_reads_reference {s : Text} (h : reads referenceForm s = true) :
    ∃ name, ProperName name ∧ startsWith (reference name) s = true := by
  unfold reads referenceForm formOf referenceLength? at h
  rw [Option.isSome_map] at h
  cases ha : after? spacedOpen s with
  | none => rw [ha] at h; cases h
  | some inside =>
    simp only [ha, Option.bind_some] at h
    split at h
    · next hn =>
      refine ⟨inside.takeWhile isWord, ⟨hn.1, List.all_eq_true.1 List.all_takeWhile⟩, ?_⟩
      obtain ⟨rest, hr⟩ := startsWith_iff.1 hn.2
      refine startsWith_iff.2 ⟨rest, ?_⟩
      calc s = spacedOpen ++ (inside.takeWhile isWord ++ inside.dropWhile isWord) := by
            rw [List.takeWhile_append_dropWhile]; exact after?_eq_some.1 ha
        _ = reference (inside.takeWhile isWord) ++ rest := by rw [hr]; simp [reference]
    · cases h

/-- What the form of references reads in a token, when the queries are hidden. -/
def Token.unqueried (t : Token) : List Text := if t.isQueried then [] else [t.text]

theorem reads_reference {f : Token → Text} {t : Token} (ht : t.Proper)
    (hf : if t.isQueried then Bare (f t) else f t = t.text) :
    Reads referenceForm (f t) t.unqueried := by
  unfold Token.unqueried
  split at hf
  · next hq =>
    rw [if_pos hq]
    exact reads_of_quiet opens_referenceForm hf.quiet_open
  · next hq =>
    rw [if_neg hq, hf]
    cases t with
    | query path => exact absurd rfl hq
    | named name =>
      refine reads_found (braced_ne_nil _) fun rest => formOf_append ?_
      rw [Token.text_named, length_reference]
      exact referenceLength?_reference ht rest

/-- **References are read** once the queries are hidden. -/
theorem readings_references {l : Layout} (hl : ∀ seg ∈ l, seg.Proper) {f : Token → Text}
    (hf : ∀ t ∈ l.tokens, if t.isQueried then Bare (f t) else f t = t.text) :
    readings referenceForm (l.write f (Chain.expression f)) =
      l.tokens.flatMap Token.unqueried := by
  unfold Layout.tokens
  rw [List.flatMap_assoc]
  refine Reads.readings (.flatMap fun seg hs => ?_)
  have hp := hl seg hs
  have hf := fun t (ht : t ∈ seg.tokens) => hf t (Layout.mem_tokens hs ht)
  cases seg with
  | literal s => exact reads_of_quiet opens_referenceForm (Bare.quiet_open hp)
  | token t =>
    have ht : t ∈ (Segment.token t).tokens := List.mem_singleton.2 rfl
    have := reads_reference (hp.tokens t ht) (hf t ht)
    simpa [Segment.write, Segment.tokens] using this
  | chain c =>
    have hc : c.Proper := hp
    have hbal : ∀ t ∈ c.tokens, Paired (f t) := by
      intro t ht
      refine Filled.paired (hc.tokens t ht) ?_
      have := hf t ht
      split at this
      · exact Or.inr this
      · exact Or.inl this
    refine reads_unread_chain hc opens_referenceForm (fun rest => ?_) fun t ht =>
      reads_reference (hc.tokens t ht) (hf t ht)
    cases hr : reads referenceForm (c.expression f ++ rest) with
    | false => rfl
    | true =>
      obtain ⟨name, hn, hw⟩ := startsWith_of_reads_reference hr
      rw [hc.startsWith_reference hbal hn rest] at hw
      cases hw

/-! ## Expressions -/

/-- A text that neither opens nor closes an expression, alone or with the text around it. -/
structure Solid (s : Text) : Prop where
  nonempty : s ≠ []
  bare : Bare s
  unspaced : ' ' ∉ s

theorem chainLength?_quiet {rest : Text}
    (hc : Quiet (startsWith spacedClose) u (spacedClose ++ rest))
    (ho : Quiet (startsWith spacedOpen) u (spacedClose ++ rest)) :
    chainLength? (u ++ (spacedClose ++ rest)) = some u.length := by
  induction u with
  | nil =>
    have : startsWith spacedClose (' ' :: '}' :: '}' :: rest) = true := startsWith_append _ rest
    show chainLength? (' ' :: '}' :: '}' :: rest) = _
    rw [chainLength?, if_pos this]
    rfl
  | cons c u ih =>
    rw [List.cons_append, chainLength?, hc.1, ho.1, ih hc.2 ho.2]
    rfl

theorem Solid.quiet_close {s : Text} (h : Solid s) (rest : Text) :
    Quiet (startsWith spacedClose) s rest :=
  quiet_of_forall fun c hc t => by
    have hb : c ≠ ' ' := fun e => h.unspaced (e ▸ hc)
    simp [startsWith, after?, spacedClose, Ne.symm hb]

/-- Between solid tokens, a text of a chain closes no expression. -/
theorem quiet_spacedClose_write {f : Token → Text} {ps : List (Token × Text)} {s : Text}
    (hs : contains spacedClose s = false) (hps : ∀ p ∈ ps, contains spacedClose p.2 = false)
    (hf : ∀ p ∈ ps, Solid (f p.1)) (rest : Text) :
    Quiet (startsWith spacedClose) (s ++ ps.flatMap fun p => f p.1 ++ p.2)
      (spacedClose ++ rest) := by
  induction ps generalizing s with
  | nil =>
    rw [List.flatMap_nil, List.append_nil]
    refine quiet_of_not_contains hs fun c hc => ?_
    have : c = ' ' := by simpa [spacedClose, eq_comm] using hc
    subst this
    decide
  | cons p ps ih =>
    have hp := hf p List.mem_cons_self
    rw [List.flatMap_cons, List.append_assoc, quiet_append, quiet_append]
    refine ⟨quiet_of_not_contains hs fun c hc => ?_, hp.quiet_close _, ?_⟩
    · obtain ⟨d, w, hd⟩ := List.exists_cons_of_ne_nil hp.nonempty
      have : c = d := by simpa [hd, eq_comm] using hc
      subst this
      have hnot : c ≠ '}' := fun e => hp.bare.not_mem (c := '}') rfl (by rw [hd, e]; simp)
      simp [spacedClose, hnot]
    · exact ih (hps p List.mem_cons_self) (fun q hq => hps q (List.mem_cons_of_mem p hq))
        fun q hq => hf q (List.mem_cons_of_mem p hq)

theorem quiet_flatMap {α : Type} {p : Text → Bool} {l : List α} {f : α → Text}
    (h : ∀ x ∈ l, ∀ rest, Quiet p (f x) rest) (rest : Text) : Quiet p (l.flatMap f) rest := by
  induction l with
  | nil => exact trivial
  | cons x l ih =>
    rw [List.flatMap_cons, quiet_append]
    exact ⟨h x List.mem_cons_self _, ih fun y hy => h y (List.mem_cons_of_mem x hy)⟩

theorem Chain.Proper.expressionLength? {c : Chain} (hc : c.Proper) {f : Token → Text}
    (hf : ∀ t ∈ c.tokens, Solid (f t)) (rest : Text) :
    expressionLength? (c.expression f ++ rest) = some (c.expression f).length := by
  have hafter : after? spacedOpen (c.expression f ++ rest) =
      some (c.write f ++ (spacedClose ++ rest)) :=
    after?_eq_some.2 (by simp [Chain.expression])
  have hp : ∀ p ∈ c.rest, p.1 ∈ c.tokens ∧ p.2 ∈ c.texts := fun p hp =>
    ⟨List.mem_map_of_mem hp, List.mem_cons_of_mem _ (List.mem_map_of_mem hp)⟩
  have hclose : Quiet (startsWith spacedClose) (c.write f) (spacedClose ++ rest) :=
    quiet_spacedClose_write (hc.closes _ List.mem_cons_self) (fun p h => hc.closes _ (hp p h).2)
      (fun p h => hf _ (hp p h).1) rest
  have hopen : Quiet (startsWith openMark) (c.write f) (spacedClose ++ rest) := by
    refine quiet_append.2 ⟨quiet_open (hc.opens _ List.mem_cons_self) _, ?_⟩
    refine quiet_flatMap (fun p h r => quiet_append.2 ⟨?_, ?_⟩) _
    · exact (hf _ (hp p h).1).bare.quiet_open _
    · exact quiet_open (hc.opens _ (hp p h).2) _
  have hlen := chainLength?_quiet hclose (hopen.mono fun _ => startsWith_spacedOpen)
  have hne : (c.write f).length ≠ 0 := fun e =>
    hc.write_ne_nil f (List.length_eq_zero_iff.1 e)
  unfold Template.expressionLength?
  rw [hafter, Option.bind_some, hlen, Option.bind_some, if_neg hne]
  simp [Chain.expression, spacedOpen, spacedClose]

/-- The expressions of a layout, each with `f t` for its tokens. -/
def Layout.expressions (f : Token → Text) (l : Layout) : List Text :=
  l.filterMap fun
    | .chain c => some (c.expression f)
    | _ => none

section

variable {l : Layout} (hl : ∀ seg ∈ l, seg.Proper) {f : Token → Text}
  (hf : ∀ t ∈ l.tokens, Solid (f t))

include hl hf

/-- **Expressions are read** once the tokens are hidden. -/
theorem readings_expressions :
    readings expressionForm (l.write f (Chain.expression f)) = l.expressions f := by
  have hread : Reads expressionForm (l.write f (Chain.expression f))
      (l.flatMap fun | .chain c => [c.expression f] | _ => []) := by
    refine .flatMap fun seg hs => ?_
    have hp := hl seg hs
    have hf := fun t (ht : t ∈ seg.tokens) => hf t (Layout.mem_tokens hs ht)
    cases seg with
    | literal s => exact reads_of_quiet opens_expressionForm (Bare.quiet_open hp)
    | token t =>
      exact reads_of_quiet opens_expressionForm (hf t (List.mem_singleton.2 rfl)).bare.quiet_open
    | chain c =>
      refine reads_found (by rw [Segment.write, Chain.expression_eq_braced]; exact braced_ne_nil _)
        fun rest => formOf_append ?_
      exact Chain.Proper.expressionLength? hp hf rest
  rw [hread.readings]
  unfold Layout.expressions
  rw [List.filterMap_eq_flatMap_toList]
  refine List.flatMap_congr fun seg _ => ?_
  cases seg <;> rfl

/-- Outside of its expressions a layout is what it is without them. -/
theorem erase_expressions :
    erase expressionForm (l.write f (Chain.expression f)) = l.write f fun _ => [] := by
  refine Erases.erase (.flatMap fun seg hs => ?_)
  have hp := hl seg hs
  have hf := fun t (ht : t ∈ seg.tokens) => hf t (Layout.mem_tokens hs ht)
  cases seg with
  | literal s => exact erases_of_quiet opens_expressionForm (Bare.quiet_open hp)
  | token t =>
    exact erases_of_quiet opens_expressionForm (hf t (List.mem_singleton.2 rfl)).bare.quiet_open
  | chain c =>
    refine erases_found (by rw [Segment.write, Chain.expression_eq_braced]; exact braced_ne_nil _)
      fun rest => formOf_append ?_
    exact Chain.Proper.expressionLength? hp hf rest

end

end Crosswalk.Template
