import Crosswalk.Proofs.Text.Braces
import Crosswalk.Template.Render
import Mathlib.Data.List.Basic

/-!
# Patterns laid out in segments

A pattern as its author sees it: literal text, queries `{{path}}`, variable references `{{ name }}`
and filter expressions `{{ chain }}`, whose chains may hold queries and references too.

* `Layout.text`: the pattern that is written.
* `Layout.value`: what its segments stand for, one after another, the literal text for itself.
* `Segment.Proper`: the segment is read as what it is laid out to be.
* `Layout.write f g`: the pattern with `f t` for each token and `g c` for each expression, so that
  every round of a filling is one choice of `f` and `g`.
-/

namespace Crosswalk.Template

open Text

/-! ## Segments -/

/-- A placeholder without filters. -/
inductive Token where
  | query (path : Text)
  | named (name : Text)
  deriving DecidableEq

/-- A chain of filters as it is written: some text, then tokens with the text after each. -/
structure Chain where
  first : Text
  rest : List (Token × Text)
  deriving DecidableEq

inductive Segment where
  | literal (s : Text)
  | token (t : Token)
  | chain (c : Chain)
  deriving DecidableEq

abbrev Layout := List Segment

/-! ## Texts -/

namespace Token

/-- What stands between the double braces. -/
def inside : Token → Text
  | .query path => path
  | .named name => ' ' :: (name ++ [' '])

def text (t : Token) : Text := braced t.inside

def isReserved : Token → Bool
  | .query _ => false
  | .named name => reservedTokens.elem (reference name)

/-- Whether the token is filled along with the queries: a query, or a reserved name. -/
def isQueried : Token → Bool
  | .query _ => true
  | .named name => isReserved (.named name)

end Token

namespace Chain

def texts (c : Chain) : List Text := c.first :: c.rest.map (·.2)

def tokens (c : Chain) : List Token := c.rest.map (·.1)

/-- The chain with `f t` for each token. -/
def write (f : Token → Text) (c : Chain) : Text := c.first ++ c.rest.flatMap fun p => f p.1 ++ p.2

/-- Whether a query stands in the chain. -/
def isQueried (c : Chain) : Bool := c.tokens.any Token.isQueried

/-- The filter expression of the chain. -/
def expression (f : Token → Text) (c : Chain) : Text := spacedOpen ++ c.write f ++ spacedClose

end Chain

namespace Segment

def write (f : Token → Text) (g : Chain → Text) : Segment → Text
  | .literal s => s
  | .token t => f t
  | .chain c => g c

/-- The tokens of a segment, those of its chain included. -/
def tokens : Segment → List Token
  | .literal _ => []
  | .token t => [t]
  | .chain c => c.tokens

def isLiteral : Segment → Bool
  | .literal _ => true
  | _ => false

end Segment

namespace Layout

def write (f : Token → Text) (g : Chain → Text) (l : Layout) : Text := l.flatMap (Segment.write f g)

def text (l : Layout) : Text := l.write Token.text (Chain.expression Token.text)

/-- The tokens of a layout, those of its chains included. -/
def tokens (l : Layout) : List Token := l.flatMap Segment.tokens

end Layout

/-! ## Values -/

/-- What a query finds first; nothing without a document. -/
def found (lookup : Lookup) (path : Text) : Text := (lookup.map fun find => find path).getD []

/-- The variable of a name, empty when unknown. -/
def known (vars : Pairs Text Text) (name : Text) : Text := (Pairs.get? name vars).getD []

def Token.value (vars : Pairs Text Text) (lookup : Lookup) : Token → Text
  | .query path => found lookup path
  | .named name => known vars name

/-- A token when the queries are filled. Reserved names are filled along with them. -/
def Token.filled (vars : Pairs Text Text) (lookup : Lookup) (t : Token) : Text :=
  if t.isQueried then t.value vars lookup else t.text

/-- What the chain gives. Its queries and reserved names are text in it, other names arguments. -/
def Chain.value [Host] (scope : Filter.Scope) (lookup : Lookup) (c : Chain) :
    Except Filter.NotWhole Text :=
  Filter.evaluate scope (c.write (Token.filled scope.vars lookup))

def Segment.value [Host] (scope : Filter.Scope) (lookup : Lookup) :
    Segment → Except Filter.NotWhole Text
  | .literal s => .ok s
  | .token t => .ok (t.value scope.vars lookup)
  | .chain c => c.value scope lookup

/-- The values of the segments, in order. -/
def Layout.value [Host] (scope : Filter.Scope) (lookup : Lookup) (l : Layout) :
    Except Filter.NotWhole Text :=
  (l.mapM (Segment.value scope lookup)).map List.flatten

/-! ## Proper segments -/

/-- A path that ends where its braces do: on one line, without blanks at its ends, with balanced
braces that never double. -/
structure ProperPath (path : Text) : Prop where
  nonempty : path ≠ []
  first : path.head?.all (fun c => !isBlank c) = true
  last : path.getLast?.all (fun c => !isBlank c) = true
  line : '\n' ∉ path
  opens : contains openMark ('{' :: path) = false
  closes : contains closeMark (path ++ ['}']) = false
  paired : Paired path

structure ProperName (name : Text) : Prop where
  nonempty : name ≠ []
  word : ∀ c ∈ name, isWord c = true

def Token.Proper : Token → Prop
  | .query path => ProperPath path
  | .named name => ProperName name

def referenceWord : Text := "Variable__"

def queryWord : Text := "To_Be_Replaced__"

/-- A text that spells no mask word, nor all of one but its ends. -/
def Unmasked (s : Text) : Prop :=
  contains referenceWord s = false ∧ contains queryWord s = false

instance (s : Text) : Decidable (Unmasked s) := inferInstanceAs (Decidable (_ ∧ _))

/-- A chain that is more than a name and ends where its braces do. -/
structure Chain.Proper (c : Chain) : Prop where
  opens : ∀ s ∈ c.texts, contains openMark (s ++ ['{']) = false
  closes : ∀ s ∈ c.texts, contains spacedClose s = false
  paired : Paired (c.write Token.text)
  more : ∃ s ∈ c.texts, s.all isWord = false
  tokens : ∀ t ∈ c.tokens, t.Proper
  texts_unmasked : ∀ s ∈ c.texts, Unmasked s
  tokens_unmasked : ∀ t ∈ c.tokens, Unmasked t.inside

def Segment.Proper : Segment → Prop
  | .literal s => Bare s
  | .token (.query path) => ProperPath path
  | .token (.named name) => ProperName name ∧ Unmasked name
  | .chain c => c.Proper

instance (path : Text) : Decidable (ProperPath path) :=
  decidable_of_iff
    (path ≠ [] ∧ path.head?.all (fun c => !isBlank c) = true ∧
      path.getLast?.all (fun c => !isBlank c) = true ∧ '\n' ∉ path ∧
      contains openMark ('{' :: path) = false ∧ contains closeMark (path ++ ['}']) = false ∧
      Paired path)
    ⟨fun ⟨h1, h2, h3, h4, h5, h6, h7⟩ => ⟨h1, h2, h3, h4, h5, h6, h7⟩,
      fun ⟨h1, h2, h3, h4, h5, h6, h7⟩ => ⟨h1, h2, h3, h4, h5, h6, h7⟩⟩

instance (name : Text) : Decidable (ProperName name) :=
  decidable_of_iff (name ≠ [] ∧ name.all isWord = true)
    ⟨fun ⟨h1, h2⟩ => ⟨h1, List.all_eq_true.1 h2⟩, fun ⟨h1, h2⟩ => ⟨h1, List.all_eq_true.2 h2⟩⟩

instance : (t : Token) → Decidable t.Proper
  | .query path => inferInstanceAs (Decidable (ProperPath path))
  | .named name => inferInstanceAs (Decidable (ProperName name))

instance (c : Chain) : Decidable c.Proper :=
  decidable_of_iff
    ((∀ s ∈ c.texts, contains openMark (s ++ ['{']) = false) ∧
      (∀ s ∈ c.texts, contains spacedClose s = false) ∧ Paired (c.write Token.text) ∧
      (∃ s ∈ c.texts, s.all isWord = false) ∧ (∀ t ∈ c.tokens, t.Proper) ∧
      (∀ s ∈ c.texts, Unmasked s) ∧ ∀ t ∈ c.tokens, Unmasked t.inside)
    ⟨fun ⟨h1, h2, h3, h4, h5, h6, h7⟩ => ⟨h1, h2, h3, h4, h5, h6, h7⟩,
      fun ⟨h1, h2, h3, h4, h5, h6, h7⟩ => ⟨h1, h2, h3, h4, h5, h6, h7⟩⟩

instance : (seg : Segment) → Decidable seg.Proper
  | .literal s => inferInstanceAs (Decidable (Bare s))
  | .token (.query path) => inferInstanceAs (Decidable (ProperPath path))
  | .token (.named name) => inferInstanceAs (Decidable (ProperName name ∧ Unmasked name))
  | .chain c => inferInstanceAs (Decidable c.Proper)

/-! ## Lemmas -/

@[simp] theorem Token.text_named (name : Text) : Token.text (.named name) = reference name := by
  simp [Token.text, Token.inside, braced, reference, spacedOpen, spacedClose]

theorem Token.text_query (path : Text) : Token.text (.query path) = braced path := rfl

theorem reference_eq_braced (name : Text) : reference name = braced (' ' :: (name ++ [' '])) :=
  (Token.text_named name).symm

theorem Chain.expression_eq_braced (f : Token → Text) (c : Chain) :
    c.expression f = braced (' ' :: (c.write f ++ [' '])) := by
  simp [Chain.expression, braced, spacedOpen, spacedClose]

theorem Chain.write_congr {f g : Token → Text} {c : Chain} (h : ∀ t ∈ c.tokens, f t = g t) :
    c.write f = c.write g := by
  obtain ⟨first, rest⟩ := c
  unfold Chain.write
  refine congrArg (first ++ ·) (List.flatMap_congr fun p hp => ?_)
  rw [h p.1 (List.mem_map_of_mem hp)]

theorem Chain.expression_congr {f g : Token → Text} {c : Chain} (h : ∀ t ∈ c.tokens, f t = g t) :
    c.expression f = c.expression g := by
  rw [expression, expression, write_congr h]

theorem Layout.write_congr {f f' : Token → Text} {g g' : Chain → Text} {l : Layout}
    (hf : ∀ t, .token t ∈ l → f t = f' t) (hg : ∀ c, .chain c ∈ l → g c = g' c) :
    l.write f g = l.write f' g' := by
  refine List.flatMap_congr fun seg hs => ?_
  cases seg with
  | literal s => rfl
  | token t => exact hf t hs
  | chain c => exact hg c hs

theorem ProperName.bare {name : Text} (h : ProperName name) : Bare name := by
  refine List.all_eq_true.2 fun c hc => ?_
  have hw := h.word c hc
  cases hb : isBrace c with
  | false => rfl
  | true =>
    simp only [isBrace, Bool.or_eq_true, beq_iff_eq] at hb
    rcases hb with rfl | rfl <;> revert hw <;> decide

theorem Token.Proper.paired {t : Token} (h : t.Proper) : Paired t.inside := by
  cases t with
  | query path => exact ProperPath.paired h
  | named name =>
    refine Bare.paired (bare_cons.2 ⟨rfl, bare_append.2 ⟨ProperName.bare h, by decide⟩⟩)

theorem Segment.Proper.tokens {seg : Segment} (h : seg.Proper) : ∀ t ∈ seg.tokens, t.Proper := by
  intro t ht
  cases seg with
  | literal s => cases ht
  | token u =>
    rw [List.mem_singleton.1 ht]
    cases u with
    | query path => exact h
    | named name => exact h.1
  | chain c => exact Chain.Proper.tokens h t ht

theorem ProperPath.first_eq {path : Text} (h : ProperPath path) :
    ∃ c s, path = c :: s ∧ isBlank c = false := by
  obtain ⟨c, s, rfl⟩ := List.exists_cons_of_ne_nil h.nonempty
  exact ⟨c, s, rfl, by simpa using h.first⟩

theorem ProperPath.last_eq {path : Text} (h : ProperPath path) :
    ∃ s c, path = s ++ [c] ∧ isBlank c = false := by
  refine ⟨path.dropLast, path.getLast h.nonempty, (List.dropLast_append_getLast h.nonempty).symm, ?_⟩
  have := h.last
  rw [List.getLast?_eq_some_getLast h.nonempty] at this
  simpa using this

theorem Layout.mem_tokens {l : Layout} {seg : Segment} (hs : seg ∈ l) {t : Token}
    (ht : t ∈ seg.tokens) : t ∈ l.tokens :=
  List.mem_flatMap.2 ⟨seg, hs, ht⟩

theorem Layout.proper_of_mem_tokens {l : Layout} (hl : ∀ seg ∈ l, seg.Proper) {t : Token}
    (h : t ∈ l.tokens) : t.Proper := by
  obtain ⟨seg, hs, ht⟩ := List.mem_flatMap.1 h
  exact (hl seg hs).tokens t ht

/-- A token is known by its text. -/
theorem Token.Proper.text_injective {t t' : Token} (h : t.Proper) (h' : t'.Proper)
    (e : t.text = t'.text) : t = t' := by
  have hi : t.inside = t'.inside := by
    refine braced_injective (a := []) (b := []) h.paired h'.paired ?_
    rw [List.append_nil, List.append_nil]
    exact e
  have hblank : ∀ path s, ProperPath path → path ≠ ' ' :: s := by
    rintro path s hp rfl
    obtain ⟨c, r, hc, hb⟩ := hp.first_eq
    rw [← (List.cons.inj hc).1] at hb
    exact absurd hb (by decide)
  cases t with
  | query path =>
    cases t' with
    | query path' => exact congrArg Token.query hi
    | named name' => exact absurd hi (hblank _ _ h)
  | named name =>
    cases t' with
    | query path' => exact absurd hi.symm (hblank _ _ h')
    | named name' =>
      have : name ++ [' '] = name' ++ [' '] := (List.cons.inj hi).2
      rw [List.append_cancel_right this]

theorem level_flatMap_append {f : Token → Text} {ps : List (Token × Text)}
    (h : ∀ p ∈ ps, Paired (f p.1)) (d : Nat) :
    level d (ps.flatMap fun p => f p.1 ++ p.2) = level d (ps.flatMap (·.2)) := by
  induction ps generalizing d with
  | nil => rfl
  | cons p ps ih =>
    have hp := (h p List.mem_cons_self).level d
    have hps := fun e => ih (fun q hq => h q (List.mem_cons_of_mem p hq)) e
    rw [List.flatMap_cons, List.flatMap_cons, List.append_assoc, level_append, hp,
      Option.bind_some, level_append, level_append]
    exact congrArg _ (funext hps)

/-- Paired tokens leave the balance of a chain to the text around them. -/
theorem Chain.paired_write {f g : Token → Text} {c : Chain}
    (hf : ∀ t ∈ c.tokens, Paired (f t)) (hg : ∀ t ∈ c.tokens, Paired (g t))
    (h : Paired (c.write f)) : Paired (c.write g) := by
  unfold Paired Chain.write at h ⊢
  have ht := fun (e : Token → Text) (he : ∀ t ∈ c.tokens, Paired (e t)) =>
    fun d => level_flatMap_append (f := e) (fun p (hp : p ∈ c.rest) =>
      he p.1 (List.mem_map_of_mem hp)) d
  rw [level_append] at h ⊢
  rw [← h]
  exact congrArg _ (funext fun d => by rw [ht g hg, ht f hf])

end Crosswalk.Template
