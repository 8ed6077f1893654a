import Crosswalk.Proofs.Text.Blank
import Crosswalk.Proofs.Xml.Outline
import Crosswalk.Proofs.Xml.Prologue

/-!
# Comments that are left out

A comment inside of an element is left out of a document as if it had not been written:

    Inside before → isCommentText s →
      rootOutline? (before ++ comment s ++ after) = rootOutline? (before ++ after)
                                                                            (rootOutline?_comment)

`Inside before` says that the text ends inside of an element, behind nodes that are read as a whole
and spaces; what follows does not matter, be it well-formed or not.
-/

namespace Crosswalk.Xml

open Text

variable {scope : Spaces} {s t u v w y z : Text} {ns ms : List Node}

/-! ## Comments -/

/-- Characters that may stand in a comment: no two dashes, and none at the end. -/
def isCommentText : Text → Bool
  | [] => true
  | c :: s => isAllowed c && (c != '-' || s.head?.any (· != '-')) && isCommentText s

def comment (s : Text) : Text := ['<', '!', '-', '-'] ++ s ++ ['-', '-', '>']

theorem isCommentText_cons {c : Char} : isCommentText (c :: s) = true ↔
    isAllowed c = true ∧ (c = '-' → ∃ d ∈ s.head?, d ≠ '-') ∧ isCommentText s = true := by
  rw [isCommentText, Bool.and_eq_true_iff, Bool.and_eq_true_iff, and_assoc]
  by_cases hc : c = '-'
  · cases s <;> simp [hc]
  · simp [hc]

theorem cut?_commentText (h : isCommentText s = true) (z : Text) :
    cut? ['-', '-'] (s ++ '-' :: '-' :: z) = some (s, z) := by
  induction s with
  | nil => exact cut?_append ['-', '-'] z
  | cons c s ih =>
    obtain ⟨-, hdash, hs⟩ := isCommentText_cons.1 h
    have hstart : startsWith ['-', '-'] (c :: (s ++ '-' :: '-' :: z)) = false := by
      rw [startsWith, after?]
      split
      · next hc =>
        obtain ⟨d, hd, hne⟩ := hdash hc.symm
        obtain ⟨t, rfl⟩ := List.head?_eq_some_iff.1 hd
        rw [List.cons_append, after?, if_neg hne.symm]
        rfl
      · rfl
    rw [List.cons_append, cut?_cons hstart, ih hs]
    rfl

theorem all_isAllowed (h : isCommentText s = true) : s.all isAllowed = true := by
  induction s with
  | nil => rfl
  | cons c s ih =>
    obtain ⟨hallowed, -, hs⟩ := isCommentText_cons.1 h
    rw [List.all_cons, hallowed, ih hs]
    rfl

theorem readComment?_commentText (h : isCommentText s = true) (z : Text) :
    readComment? (s ++ '-' :: '-' :: '>' :: z) = some (s, z) := by
  unfold readComment?
  rw [cut?_commentText h]
  exact if_pos (all_isAllowed h)

theorem markup?_comment (h : isCommentText s = true) :
    markup? false scope ('!' :: '-' :: '-' :: (s ++ ['-', '-', '>'])) = some ([], []) := by
  rw [markup?, readMarkup?, readComment?_commentText h]
  rfl

/-! ## Comments under line ends and encodings -/

theorem isCommentText_unifyLines (h : isCommentText s = true) :
    isCommentText (unifyLines s) = true := by
  have hfeed : ∀ {t}, isCommentText t = true → isCommentText ('\n' :: t) = true := fun ht =>
    isCommentText_cons.2 ⟨by decide, fun h => absurd h (by decide), ht⟩
  fun_induction unifyLines s with
  | case1 => rfl
  | case2 t ih => exact hfeed (ih (isCommentText_cons.1 (isCommentText_cons.1 h).2.2).2.2)
  | case3 t _ ih => exact hfeed (ih (isCommentText_cons.1 h).2.2)
  | case4 c t hc ih =>
    obtain ⟨hallowed, hdash, ht⟩ := isCommentText_cons.1 h
    refine isCommentText_cons.2 ⟨hallowed, fun hc => ?_, ih ht⟩
    obtain ⟨d, hd, hne⟩ := hdash hc
    obtain ⟨u, rfl⟩ := List.head?_eq_some_iff.1 hd
    refine ⟨_, head?_unifyLines d u, ?_⟩
    split
    · decide
    · exact hne

theorem unifyLines_comment (s after : Text) :
    unifyLines (comment s ++ after) = comment (unifyLines s) ++ unifyLines after := by
  have hclose : unifyLines (['-', '-', '>'] ++ after) = ['-', '-', '>'] ++ unifyLines after :=
    unifyLines_append fun h => absurd h (by decide)
  have hopen : unifyLines (['<', '!', '-', '-'] ++ (s ++ (['-', '-', '>'] ++ after))) =
      ['<', '!', '-', '-'] ++ unifyLines (s ++ (['-', '-', '>'] ++ after)) :=
    unifyLines_append fun h => absurd h (by decide)
  have hinside : unifyLines (s ++ (['-', '-', '>'] ++ after)) =
      unifyLines s ++ unifyLines (['-', '-', '>'] ++ after) :=
    unifyLines_append fun _ h => by simp at h
  unfold comment
  rw [List.append_assoc, List.append_assoc, hopen, hinside, hclose]
  simp only [List.append_assoc]

theorem isCommentText_append {a : Text} (ha : ∀ c ∈ a, c ≠ '-' ∧ isAllowed c = true)
    (h : isCommentText s = true) : isCommentText (a ++ s) = true := by
  induction a with
  | nil => exact h
  | cons c a ih =>
    obtain ⟨hc, hallowed⟩ := ha c List.mem_cons_self
    exact isCommentText_cons.2 ⟨hallowed, fun h => absurd h hc,
      ih fun d hd => ha d (List.mem_cons_of_mem c hd)⟩

theorem Faithful.head?_flatMap {f : Char → Text} (hf : Faithful f) {d : Char} (hd : d ≠ '-')
    (s : Text) : ∃ e ∈ ((d :: s).flatMap f).head?, e ≠ '-' := by
  rw [List.flatMap_cons]
  rcases Nat.lt_or_ge d.toNat 0x80 with hlow | hhigh
  · exact ⟨d, by rw [hf.ascii d hlow]; rfl, hd⟩
  · obtain ⟨hnil, hmem⟩ := hf.other d hhigh
    obtain ⟨e, t, he⟩ := List.exists_cons_of_ne_nil hnil
    exact ⟨e, by rw [he]; rfl, ne_of_ascii (hmem e (by simp [he])).1 (by decide)⟩

theorem isCommentText_flatMap {f : Char → Text} (hf : Faithful f) (h : isCommentText s = true) :
    isCommentText (s.flatMap f) = true := by
  induction s with
  | nil => rfl
  | cons c s ih =>
    obtain ⟨hallowed, hdash, hs⟩ := isCommentText_cons.1 h
    rw [List.flatMap_cons]
    rcases Nat.lt_or_ge c.toNat 0x80 with hlow | hhigh
    · rw [hf.ascii c hlow]
      refine isCommentText_cons.2 ⟨hallowed, fun hc => ?_, ih hs⟩
      obtain ⟨d, hd, hne⟩ := hdash hc
      obtain ⟨u, rfl⟩ := List.head?_eq_some_iff.1 hd
      exact hf.head?_flatMap hne u
    · refine isCommentText_append (fun d hd => ?_) (ih hs)
      obtain ⟨hcode, hd'⟩ := (hf.other c hhigh).2 d hd
      exact ⟨ne_of_ascii hcode (by decide), hd' hallowed⟩

theorem flatMap_comment {f : Char → Text} (hf : Faithful f) (s : Text) :
    (comment s).flatMap f = comment (s.flatMap f) := by
  have hopen : ['<', '!', '-', '-'].flatMap f = ['<', '!', '-', '-'] := by
    simp [List.flatMap_cons, hf.ascii]
  have hclose : ['-', '-', '>'].flatMap f = ['-', '-', '>'] := by
    simp [List.flatMap_cons, hf.ascii]
  unfold comment
  rw [List.flatMap_append, List.flatMap_append, hopen, hclose]

/-! ## Spaces -/

theorem cdataClose_eq : cdataClose = [']', ']', '>'] := by decide

theorem chars?_space {c : Char} (hc : isSpace c = true) (s : Text) :
    chars? (c :: s) = (chars? s).map fun p => (c :: p.1, p.2) := by
  have hcases : c = ' ' ∨ c = '\t' ∨ c = '\n' ∨ c = '\r' := by
    simpa [isSpace, or_assoc] using hc
  have hpiece : readPiece? (c :: s) = some ([c], s) := by
    have hclose : startsWith cdataClose (c :: s) = false := by
      rw [cdataClose_eq, startsWith, after?]
      rcases hcases with rfl | rfl | rfl | rfl <;> rfl
    rw [readPiece?, hclose]
    rcases hcases with rfl | rfl | rfl | rfl <;> rfl
  have hmarkup : ¬ AtMarkup (c :: s) := by
    rintro ⟨hhead, -⟩
    rw [Option.some.inj hhead] at hc
    cases hc
  rw [chars?, List.length_cons, readChars?_of_not_markup (List.cons_ne_nil c s) hmarkup, hpiece]
  rfl

theorem chars?_spaces (hw : ∀ c ∈ w, isSpace c = true) (s : Text) :
    chars? (w ++ s) = (chars? s).map fun p => (w ++ p.1, p.2) := by
  induction w with
  | nil => cases h : chars? s <;> simp [h]
  | cons c w ih =>
    rw [List.cons_append, chars?_space (hw c List.mem_cons_self),
      ih fun d hd => hw d (List.mem_cons_of_mem c hd), Option.map_map]
    rfl

theorem chars?_append {run chars : Text} (h : chars? (run ++ ['<']) = some (chars, ['<']))
    (hz : AtMarkup ('<' :: z)) : chars? (run ++ '<' :: z) = some (chars, '<' :: z) := by
  have hlonger := readChars?_append h (List.cons_ne_nil _ _) hz (Nat.lt_succ_self _)
  rwa [List.append_assoc] at hlonger

/-! ## Nodes behind one another -/

/-- Nodes that are read as a whole, each behind a run of characters. -/
inductive Items (scope : Spaces) : Text → List Node → Prop
  | nil : Items scope [] []
  | cons {run chars u s : Text} {ns ms : List Node}
      (hrun : chars? (run ++ ['<']) = some (chars, ['<']))
      (hmarkup : markup? false scope u = some (ns, [])) (hs : Items scope s ms) :
      Items scope (run ++ '<' :: (u ++ s)) (.text chars :: (ns ++ ms))

theorem content?_cons {run chars : Text} (hrun : chars? (run ++ ['<']) = some (chars, ['<']))
    (hmarkup : markup? false scope u = some (ns, [])) (z : Text) :
    content? false scope (run ++ '<' :: (u ++ z)) =
      (content? false scope z).map fun q => (.text chars :: (ns ++ q.1), q.2) := by
  rw [content?_eq, chars?_append hrun (readMarkup?_start hmarkup z).2, Option.bind_some,
    turn?_markup hmarkup, Option.map_map]
  rfl

theorem Items.content?_append (h : Items scope s ns) (z : Text) :
    content? false scope (s ++ z) = (content? false scope z).map fun q => (ns ++ q.1, q.2) := by
  induction h with
  | nil => cases hz : content? false scope z <;> simp [hz]
  | cons hrun hmarkup hs ih =>
    rw [List.append_assoc, List.cons_append, List.append_assoc, content?_cons hrun hmarkup, ih,
      Option.map_map]
    simp [Function.comp_def]

/-! ## Content up to the texts between nodes -/

/-- Both fail, or both give alike nodes and leave the same rest. -/
def ReadAlike (a b : Option (List Node × Text)) : Prop :=
  Option.Rel (fun p q => Alike p.1 q.1 ∧ p.2 = q.2) a b

namespace ReadAlike

variable {a b c : Option (List Node × Text)}

theorem symm (h : ReadAlike a b) : ReadAlike b a := by
  cases h with
  | none => exact .none
  | some h => exact .some ⟨h.1.symm, h.2.symm⟩

theorem trans (h : ReadAlike a b) (h' : ReadAlike b c) : ReadAlike a c := by
  cases h with
  | none => exact h'
  | some h =>
    cases h' with
    | some h' => exact .some ⟨h.1.trans h'.1, h.2.trans h'.2⟩

theorem map {f g : List Node → List Node} (h : ReadAlike a b)
    (hfg : ∀ ns ms, Alike ns ms → Alike (f ns) (g ms)) :
    ReadAlike (a.map fun q => (f q.1, q.2)) (b.map fun q => (g q.1, q.2)) := by
  cases h with
  | none => exact .none
  | some h => exact .some ⟨hfg _ _ h.1, h.2⟩

end ReadAlike

theorem content?_spaces (scope : Spaces) (hw : ∀ c ∈ w, isSpace c = true) (z : Text) :
    ReadAlike (content? false scope (w ++ z))
      ((content? false scope z).map fun q => (.text w :: q.1, q.2)) := by
  rw [content?_eq, content?_eq, chars?_spaces hw]
  cases chars? z with
  | none => exact .none
  | some p =>
    dsimp only [Option.map_some, Option.bind_some]
    cases turn? false scope p.2 with
    | none => exact .none
    | some q => exact .some ⟨(Alike.texts w p.1 q.1).symm, rfl⟩

theorem content?_comment (hw : ∀ c ∈ w, isSpace c = true) (hs : isCommentText s = true)
    (z : Text) : content? false scope (w ++ (comment s ++ z)) =
      (content? false scope z).map fun q => (.text w :: q.1, q.2) := by
  have hopen : AtMarkup ['<'] := ⟨rfl, by rw [cdataMark_eq]; rfl⟩
  have hrun : chars? (w ++ ['<']) = some (w, ['<']) := by
    have hstop : chars? ['<'] = some ([], ['<']) := readChars?_of_markup hopen
    rw [chars?_spaces hw, hstop, Option.map_some, List.append_nil]
  have hcomment : comment s ++ z = '<' :: ('!' :: '-' :: '-' :: (s ++ ['-', '-', '>']) ++ z) := by
    simp [comment]
  rw [hcomment, content?_cons hrun (markup?_comment hs)]
  rfl

/-- A comment behind nodes and spaces is left out. Behind a node that is no text, the spaces after
it may be left out with it. -/
theorem Items.readAlike (h : Items scope s ns) (hw : ∀ c ∈ w, isSpace c = true)
    (ht : isCommentText t = true) (hv : ∀ c ∈ v, isSpace c = true)
    (hnode : v ≠ [] → ∃ n ∈ ns, n.isText = false) (z : Text) :
    ReadAlike (content? false scope (s ++ (w ++ (comment t ++ (v ++ z)))))
      (content? false scope (s ++ (w ++ z))) := by
  rw [h.content?_append, h.content?_append, content?_comment hw ht]
  have hwith := ((content?_spaces scope hv z).map fun _ _ h => h.text w).map
    fun _ _ h => h.append ns
  have hwithout := (content?_spaces scope hw z).map fun _ _ h => h.append ns
  have htexts : ∀ ms, Alike (ns ++ .text w :: .text v :: ms) (ns ++ .text w :: ms) := by
    intro ms
    -- Spaces join the text before them, and are left out behind a node that is no text.
    by_cases hnil : v = []
    · rw [hnil]
      refine Alike.append ?_ ns
      have hempty := Alike.texts w [] ms
      rwa [List.append_nil] at hempty
    · obtain ⟨n, hn, hnode⟩ := hnode hnil
      exact Alike.append_of_mem hn hnode (by simp only [outlines])
  refine (hwith.trans ?_).trans hwithout.symm
  cases content? false scope z with
  | none => exact .none
  | some q => exact .some ⟨htexts q.1, rfl⟩

/-! ## Elements around a place -/

/-- The text ends behind the start tag of an element, where these namespaces are declared. -/
inductive Opened : Spaces → Text → Prop
  | root {p u : Text} {ns : List Node} {g : Tag}
      (hbefore : prologue? false (p ++ '<' :: (u ++ ['>'])) = some (ns, '<' :: (u ++ ['>'])))
      (htag : readTag? [] (u ++ ['>']) = some (g, ['>'])) :
      Opened g.inside (p ++ '<' :: (u ++ ['>']))
  | child {scope : Spaces} {p s run chars u : Text} {ns : List Node} {g : Tag}
      (hparent : Opened scope p) (hbefore : Items scope s ns)
      (hrun : chars? (run ++ ['<']) = some (chars, ['<']))
      (htag : readTag? scope (u ++ ['>']) = some (g, ['>'])) :
      Opened g.inside (p ++ (s ++ (run ++ '<' :: (u ++ ['>']))))

theorem Opened.mem (h : Opened scope t) : '>' ∈ t := by
  cases h <;> simp

/-- Two elements of one outline that leave the same rest. -/
structure ElementAlike (e f : Node × Text) : Prop where
  left : e.1.isElement = true
  right : f.1.isElement = true
  outline : e.1.outline = f.1.outline
  rest : e.2 = f.2

theorem not_isText {n : Node} (h : n.isElement = true) : n.isText = false := by
  cases n with
  | element => rfl
  | _ => cases h

theorem element?_readAlike {g : Tag} (htag : readTag? scope u = some (g, ['>']))
    (h : ReadAlike (content? false g.inside y) (content? false g.inside z)) :
    Option.Rel ElementAlike (element? false scope (u ++ y)) (element? false scope (u ++ z)) := by
  rw [element?_open htag, element?_open htag]
  generalize content? false g.inside y = a at h
  generalize content? false g.inside z = b at h
  cases h with
  | none => exact .none
  | some h =>
    obtain ⟨hnodes, hrest⟩ := h
    dsimp only [Option.bind_some]
    rw [hrest]
    cases endTag? g.written _ with
    | none => exact .none
    | some rest => exact .some ⟨rfl, rfl, hnodes.element g.name g.attributes g.declared, rfl⟩

/-- An element goes before the same content. -/
theorem turn?_readAlike {g : Tag} (htag : readTag? scope u = some (g, ['>']))
    (h : ReadAlike (content? false g.inside y) (content? false g.inside z)) :
    ReadAlike (turn? false scope ('<' :: (u ++ y))) (turn? false scope ('<' :: (u ++ z))) := by
  have helement := element?_readAlike htag h
  obtain ⟨c, t, rfl, hc⟩ := readTag?_name htag
  rw [List.cons_append, List.cons_append] at *
  rw [turn?_element hc, turn?_element hc]
  generalize element? false scope (c :: (t ++ y)) = a at helement
  generalize element? false scope (c :: (t ++ z)) = b at helement
  cases helement with
  | none => exact .none
  | some h =>
    dsimp only [Option.bind_some]
    rw [h.rest]
    cases content? false scope _ with
    | none => exact .none
    | some q =>
      exact .some ⟨.cons (not_isText h.left) (not_isText h.right) h.outline rfl, rfl⟩

/-- The outline of the root of a document. -/
def Document.outline? (d : Option Document) : Option Node :=
  (d.bind Document.root?).map Node.outline

theorem outline?_root {root root' : Node} (h : root.isElement = true) (h' : root'.isElement = true)
    (houtline : root.outline = root'.outline) (before after : List Node) :
    Document.outline? (some ⟨before ++ root :: after⟩) =
      Document.outline? (some ⟨before ++ root' :: after⟩) := by
  simp only [Document.outline?, Document.root?, Option.bind_some, List.find?_append,
    List.find?_cons_of_pos h, List.find?_cons_of_pos h']
  cases List.find? Node.isElement before with
  | none => exact congrArg some houtline
  | some n => rfl

theorem outline?_rootFrom {before : List Node}
    (h : Option.Rel ElementAlike (element? false [] y) (element? false [] z)) :
    Document.outline? (rootFrom? false before ('<' :: y)) =
      Document.outline? (rootFrom? false before ('<' :: z)) := by
  rw [rootFrom?, rootFrom?]
  generalize element? false [] y = a at h
  generalize element? false [] z = b at h
  cases h with
  | none => rfl
  | some h =>
    dsimp only [Option.bind_some]
    rw [h.rest]
    cases readMisc? false _ _ with
    | none => rfl
    | some a =>
      dsimp only [Option.bind_some]
      split
      · exact outline?_root h.left h.right h.outline before a.1
      · rfl

/-- What follows a start tag matters up to the texts between nodes. -/
theorem Opened.readNodes? (h : Opened scope t)
    (hz : ReadAlike (content? false scope y) (content? false scope z)) :
    Document.outline? (readNodes? false (t ++ y)) =
      Document.outline? (readNodes? false (t ++ z)) := by
  induction h generalizing y z with
  | @root p u ns g hbefore htag =>
    have helement := element?_readAlike htag hz
    obtain ⟨c, t, ht, hc⟩ := readTag?_name htag
    rw [ht] at hbefore helement ⊢
    rw [readNodes?_eq, readNodes?_eq, prologue?_append hc hbefore, prologue?_append hc hbefore]
    exact outline?_rootFrom helement
  | @child scope p s run chars u ns g hparent hbefore hrun htag ih =>
    have hchars : ∀ x, chars? (run ++ '<' :: ((u ++ ['>']) ++ x)) =
        some (chars, '<' :: ((u ++ ['>']) ++ x)) := by
      intro x
      obtain ⟨c, t, ht, hc⟩ := readTag?_name htag
      rw [ht]
      exact chars?_append hrun (atMarkup_of_name hc (t ++ x))
    generalize u ++ ['>'] = u at *
    simp only [List.append_assoc, List.cons_append]
    refine ih ?_
    rw [hbefore.content?_append, hbefore.content?_append]
    refine ReadAlike.map ?_ fun _ _ h => h.append ns
    rw [content?_eq, content?_eq, hchars, hchars]
    exact (turn?_readAlike htag hz).map fun _ _ h => h.text chars

/-! ## Comments in a document -/

/-- The text ends inside of an element, behind these nodes of it and spaces. -/
def Reaches (t : Text) (ns : List Node) : Prop :=
  ∃ scope p s w, Opened scope p ∧ Items scope s ns ∧ (∀ c ∈ w, isSpace c = true) ∧
    t = p ++ (s ++ w)

theorem Reaches.mem (h : Reaches t ns) : '>' ∈ t := by
  obtain ⟨scope, p, s, w, hopened, -, -, rfl⟩ := h
  exact List.mem_append_left _ hopened.mem

theorem Reaches.readNodes? (h : Reaches t ns) (hs : isCommentText s = true)
    (hv : ∀ c ∈ v, isSpace c = true) (hnode : v ≠ [] → ∃ n ∈ ns, n.isText = false) (z : Text) :
    Document.outline? (readNodes? false (t ++ (comment s ++ (v ++ z)))) =
      Document.outline? (readNodes? false (t ++ z)) := by
  obtain ⟨scope, p, r, w, hopened, hitems, hw, rfl⟩ := h
  simp only [List.append_assoc]
  exact hopened.readNodes? (hitems.readAlike hw hs hv hnode z)

/-- The text ends inside of an element: behind a node, or behind the start tag, where no carriage
return may stand before what follows. -/
structure Inside (before : Text) : Prop where
  start : before.head? = some '<'
  reaches : ∃ encoding body f ns,
    readDeclaration? (unifyLines before) = some (encoding, body) ∧ coding? encoding = some f ∧
      Reaches (body.flatMap f) ns ∧
      ((∃ n ∈ ns, n.isText = false) ∨ before.getLast? ≠ some '\r')

/-- What is read of a document at its root, up to the texts between nodes. -/
def rootOutline? (s : Text) : Option Node := Document.outline? (read? false s)

theorem rootOutline?_comment (h : Inside t) (hs : isCommentText s = true) (after : Text) :
    rootOutline? (t ++ (comment s ++ after)) = rootOutline? (t ++ after) := by
  obtain ⟨hstart, encoding, body, f, ns, hdeclaration, hcoding, hreaches, hnode⟩ := h
  have hf := faithful_coding hcoding
  -- Without the comment, the line feed `v` behind it is one with the carriage return before it.
  obtain ⟨v, rest, hrest, hwithout, hv⟩ := exists_unifyLines_append t after
  -- The declaration ends before the comment, so that what follows is not read as part of it.
  have hclosed : '>' ∈ body := hf.mem_of_flatMap (by decide) hreaches.mem
  have hread : ∀ x, (t ++ x).head? = some '<' := by
    obtain ⟨u, rfl⟩ := List.head?_eq_some_iff.1 hstart
    exact fun x => rfl
  have hwith : unifyLines (t ++ (comment s ++ after)) =
      unifyLines t ++ (comment (unifyLines s) ++ (v ++ rest)) := by
    rw [unifyLines_append fun _ h => by simp [comment] at h, unifyLines_comment, hrest]
  unfold rootOutline?
  rw [read?_eq (hread _), read?_eq (hread _), hwith, hwithout,
    readDeclaration?_append hdeclaration hclosed, readDeclaration?_append hdeclaration hclosed]
  dsimp only [Option.bind_some]
  rw [hcoding]
  dsimp only [Option.bind_some]
  simp only [List.flatMap_append, flatMap_comment hf]
  refine hreaches.readNodes? (isCommentText_flatMap hf (isCommentText_unifyLines hs)) ?_ ?_ _
  · rcases hv with rfl | ⟨rfl, -⟩
    · simp
    · simp [hf.ascii, isSpace]
  · intro hne
    rcases hv with rfl | ⟨-, hreturn⟩
    · exact absurd rfl hne
    · exact hnode.resolve_right fun h => h hreturn

end Crosswalk.Xml
