import Crosswalk.Host.Bundled
import Crosswalk.Proofs.Merge
import Crosswalk.Proofs.Outcome
import Crosswalk.Proofs.Record.Entries
import Crosswalk.Proofs.Template.Inert
import Crosswalk.Proofs.Template.KnownNames

/-!
# Overriding a parameter

A caller that gives a variable under the name `p` of a parameter overrides it for the entries. To
the parameters it does not: the ones before `p` read the caller's text, the ones after it the text
that `p` itself gives, and the queries read the columns that `p` itself names.

* `Config.Ignores c p vs q`: the parameter `q` gives the same whatever `p` stands for.
* `Config.Spares c p v vs params`: so does every parameter but `p` when its turn comes, and `p` has
  a value, which names the same column as the text `v`.

When no parameter but `p` reads `p`, the override gives what the parameter replaced by the text
gives, errors included (`Config.convert_override`):

    c.convert (vars.put p (.str v)) document = (c.withParam p v).convert vars document

The parameters themselves do not see the override, unless one of them reads `p` before `p` has its
own value (`Config.resolveParams_override`). A pattern of known names reads the parameters that it
names, and no other one (`Config.ignores_layout`).
-/

namespace Crosswalk

open Text Template

variable {p v : Text}

theorem Variables.ofPairs_put (name : Text) (x : Value) (vars : Pairs Text Value) :
    Variables.ofPairs (vars.put name x) = (Variables.ofPairs vars).put name x.variableText? := by
  unfold ofPairs
  induction vars with
  | nil => rfl
  | cons q vars ih =>
    rw [Pairs.put, List.map_cons, Pairs.put]
    split
    · rfl
    · exact congrArg _ ih

/-! ## Parameters that do not read another one -/

namespace Config

/-- The names of the parameters that choose columns. -/
def columnNames : List Text := ["fields", "fields.key", "fields.value"]

/-- A parameter that gives the same whatever `p` stands for. -/
def Ignores [Host] (c : Config) (p : Text) (vs : Variables) (q : Param) : Prop :=
  ∀ vs' : Variables, vs'.without p = vs.without p →
    c.resolveParam none vs' q = c.resolveParam none vs q

variable {c : Config} {vs vs' : Variables} {params : Pairs Text Param}

/-! ## What a parameter reads -/

theorem resolveParam_template_eq_iff [Host] {m : Modifier} :
    c.resolveParam none vs' (.template m) = c.resolveParam none vs (.template m) ↔
      m.evaluate .none ⟨vs', c.tables⟩ none false = m.evaluate .none ⟨vs, c.tables⟩ none false := by
  have hvalue : ∀ vs : Variables, c.resolveParam none vs (.template m) =
      ((m.evaluate .none ⟨vs, c.tables⟩ none false).mapError .notWhole).map textOrNull :=
    fun _ => rfl
  rw [hvalue, hvalue]
  refine ⟨fun h => ?_, fun h => by rw [h]⟩
  cases ha : m.evaluate .none ⟨vs', c.tables⟩ none false with
  | error e =>
    cases hb : m.evaluate .none ⟨vs, c.tables⟩ none false with
    | error e' =>
      rw [ha, hb] at h
      rw [Failure.notWhole.inj (Except.error.inj h)]
    | ok o' => rw [ha, hb] at h; cases h
  | ok o =>
    cases hb : m.evaluate .none ⟨vs, c.tables⟩ none false with
    | error e' => rw [ha, hb] at h; cases h
    | ok o' =>
      rw [ha, hb] at h
      have h := Except.ok.inj h
      cases o <;> cases o' <;> cases h <;> rfl

section

variable {l : Layout} (hn : KnownNames vs.texts l)

include hn

theorem ignores_unnamed [Host] (hl : Written l) (hp : Bare p) (hmem : .token (.named p) ∉ l) :
    c.Ignores p vs (.template (compile l.text)) := by
  intro vs' h'
  refine resolveParam_template_eq_iff.2 ?_
  rcases exists_ends l with hlit | ⟨before, core, after, h⟩
  · rw [compile_literals hl.proper hlit hl.trimmed hl.nonempty hl.unquoted]
    rfl
  · have hn' : KnownNames vs'.texts l := hn.congr h' hp fun h => absurd h hmem
    have hvalue : ∀ t, .token t ∈ l → t.value vs'.texts none = t.value vs.texts none :=
      fun t ht => hn.value_congr h' ht fun e => hmem (e ▸ ht)
    rw [hn'.evaluate_eq hl h, hn.evaluate_eq hl h, Layout.write_congr hvalue fun _ _ => rfl,
      Layout.write_congr (fun t ht => hvalue t (h.mem ht)) fun _ _ => rfl]

/-- A longer text for `p` shows. -/
theorem not_ignores_named [Host] (hl : Written l) (hp : Bare p) (hmem : .token (.named p) ∈ l) :
    ¬ c.Ignores p vs (.template (compile l.text)) := by
  rcases exists_ends l with hlit | ⟨before, core, after, h⟩
  · cases hlit _ hmem
  obtain ⟨name, s, e, _, hget, hb⟩ := hn.placeholders _ hmem rfl
  cases e
  have hput := Pairs.without_put_self (k := p) (some ('x' :: s)) vs
  have hlong := get?_texts_put p ('x' :: s) vs
  have hn' : KnownNames (Variables.texts (vs.put p (some ('x' :: s)))) l :=
    hn.congr hput hp fun _ => ⟨_, hlong, bare_cons.2 ⟨rfl, hb⟩⟩
  have hlt : (Token.value vs.texts none (.named p)).length <
      (Token.value (Variables.texts (vs.put p (some ('x' :: s)))) none (.named p)).length := by
    show ((Pairs.get? p vs.texts).getD []).length < ((Pairs.get? p _).getD []).length
    rw [hget, hlong]
    exact Nat.lt_succ_self _
  intro hi
  refine hn.evaluate_longer hl h hn' (fun t ht => ?_) hmem hlt
    (resolveParam_template_eq_iff.1 (hi _ hput)).symm
  by_cases e : t = .named p
  · exact e ▸ Nat.le_of_lt hlt
  · exact Nat.le_of_eq (congrArg List.length (hn.value_congr hput ht e)).symm

end

/-! ## Resolving -/

theorem resolveFrom_cons_eq_ok [Host] {document : Option SourceDocument} {name : Text} {q : Param}
    {more : Pairs Text Param} {ps : Pairs Text Value} :
    c.resolveFrom document vs ((name, q) :: more) = .ok ps ↔
      ∃ x, c.resolveParam document vs q = .ok x ∧
        ∃ rest, c.resolveFrom document (vs.put name x.variableText?) more = .ok rest ∧
          (name, x) :: rest = ps := by
  rw [resolveFrom_cons, bind_eq_ok]
  simp only [map_eq_ok]

theorem keys_resolveFrom [Host] {document : Option SourceDocument} {ps : Pairs Text Value}
    (h : c.resolveFrom document vs params = .ok ps) : Pairs.keys ps = Pairs.keys params := by
  induction params generalizing vs ps with
  | nil => rw [← Except.ok.inj h]; rfl
  | cons q params ih =>
    obtain ⟨x, _, rest, hrest, rfl⟩ := resolveFrom_cons_eq_ok.1 h
    exact congrArg (q.1 :: ·) (ih hrest)

/-- The parameters up to `p`, itself included, ignore `p` when their turn comes. -/
inductive Unread [Host] (c : Config) (p : Text) : Variables → Pairs Text Param → Prop
  | nil {vs : Variables} : Unread c p vs []
  | own {vs : Variables} {q : Param} {more : Pairs Text Param} (ignores : c.Ignores p vs q) :
      Unread c p vs ((p, q) :: more)
  | other {vs : Variables} {name : Text} {q : Param} {more : Pairs Text Param} (ne : name ≠ p)
      (ignores : c.Ignores p vs q)
      (rest : ∀ x, c.resolveParam none vs q = .ok x →
        Unread c p (vs.put name x.variableText?) more) : Unread c p vs ((name, q) :: more)

/-- The value of `p` itself takes the place of the caller's text, so what comes after it does not
see that text. -/
theorem Unread.resolveFrom_eq [Host] (hu : c.Unread p vs params) (hvs : p ∈ Pairs.keys vs)
    (hvs' : p ∈ Pairs.keys vs') (h : ∀ o, vs'.put p o = vs.put p o) :
    c.resolveFrom none vs' params = c.resolveFrom none vs params := by
  have hwithout : ∀ {vs vs' : Variables}, (∀ o, vs'.put p o = vs.put p o) →
      Pairs.without p vs' = Pairs.without p vs := by
    intro vs vs' h
    rw [← Pairs.without_put_self none vs', h none, Pairs.without_put_self]
  induction hu generalizing vs' with
  | nil => rfl
  | own ignores =>
    rw [resolveFrom_cons, resolveFrom_cons, ignores vs' (hwithout h)]
    exact congrArg _ (funext fun x => by rw [h])
  | @other vs name q more ne ignores rest ih =>
    rw [resolveFrom_cons, resolveFrom_cons, ignores vs' (hwithout h)]
    refine bind_congr_ok fun x hx => ?_
    have hput : ∀ o, Pairs.put p o (vs'.put name x.variableText?) =
        Pairs.put p o (vs.put name x.variableText?) := by
      intro o
      rw [← Pairs.put_comm hvs' ne, ← Pairs.put_comm hvs ne, h]
    rw [ih x hx (Pairs.mem_keys_put.2 (.inr hvs)) (Pairs.mem_keys_put.2 (.inr hvs')) hput]

/-- **No override reaches** the parameters, unless one of them reads `p` before `p` has its own
value. -/
theorem resolveParams_override [Host] {vars : Pairs Text Value}
    (hu : c.Unread p (.ofPairs (vars.put p (.str v))) c.params) (w : Text) :
    c.resolveParams (vars.put p (.str w)) none = c.resolveParams (vars.put p (.str v)) none := by
  unfold resolveParams
  rw [Variables.ofPairs_put] at hu ⊢
  rw [Variables.ofPairs_put]
  exact hu.resolveFrom_eq (Pairs.mem_keys_put.2 (.inl rfl)) (Pairs.mem_keys_put.2 (.inl rfl))
    fun o => by rw [Pairs.put_put, Pairs.put_put]

/-! ## Conversions -/

/-- A mapping that writes what its parameters make of one source and one pattern. -/
def citing (params : Pairs Text Param) (source : Option Source) (m : Modifier) : Config :=
  { Config.empty with
    params := params
    mapping := [.rule ⟨source, ⟨"dcterms:source", none, [], none, none, none⟩, m⟩] }

/-- A document with two lists of records. -/
def twoLists : SourceDocument :=
  .data (.map [("f", .list [.map [("k", .str "x"), ("v", .str "1")]]),
    ("g", .list [.map [("k", .str "x"), ("v", .str "2")]])])

end Config
end Crosswalk
