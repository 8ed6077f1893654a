import Crosswalk.Host.Bundled
import Crosswalk.Proofs.Mapping.Load
import Crosswalk.Proofs.Mapping.Outline

/-!
# Comments in mappings

Includes are expanded before comments are left out, so the includes of a comment are read as well.
A comment inside of an element of a mapping stops the mapping when its includes do not end, and is
left out when they leave a comment:

    l.expand fallback (comment c) = .ok (comment c') → isCommentText c' = true →
      l.load name fallback text = l.load name fallback plain                         (load_comment)

where the texts are `before ++ comment c ++ after` and `before ++ after`. What a comment is depends on
the reader of xml, so this is about the bundled one.
-/

namespace Crosswalk

open Text Xml

namespace Include

variable {room : Nat} {store : Store} {fallback : Option Text} {a b : Text}

/-- No include is read across the border of the two texts. -/
structure Apart (a b : Text) : Prop where
  pieces : pieces form (a ++ b) = pieces form a ++ pieces form b
  includes : hasIncludes (a ++ b) = (hasIncludes a || hasIncludes b)

theorem flatten_mapM_append (f : Piece Text → Except Excess Text) (ps qs : List (Piece Text)) :
    ((ps ++ qs).mapM f).map List.flatten = ((ps.mapM f).map List.flatten).bind fun a' =>
      ((qs.mapM f).map List.flatten).map (a' ++ ·) := by
  rw [List.mapM_append]
  cases ps.mapM f with
  | error e => rfl
  | ok ts =>
    cases qs.mapM f with
    | error e => rfl
    | ok us => exact congrArg Except.ok List.flatten_append

/-- Texts that stand apart are expanded one by one. -/
theorem expand_append (h : Apart a b) : expand room store fallback (a ++ b) =
    (expand room store fallback a).bind fun a' => (expand room store fallback b).map (a' ++ ·) := by
  cases room with
  | zero =>
    rw [expand_zero, expand_zero, expand_zero, h.includes]
    cases hasIncludes a <;> cases hasIncludes b <;> rfl
  | succ room =>
    rw [expand_pieces, expand_pieces, expand_pieces, h.pieces, flatten_mapM_append]

end Include

namespace Loader

/-- A text with the includes of a mapping that is loaded from there. -/
def expand (l : Loader) (fallback : Option Text) (s : Text) : Except Excess Text :=
  Include.expand (l.includeRoom l.maxDepth.toNat) l.store fallback s

/-- The comment stands inside of an element, where no include is read across its ends or across its
place. -/
structure Commented (l : Loader) (fallback : Option Text) (before c after : Text) : Prop where
  start : before.head? = some '<'
  outside : Include.Apart before (comment c ++ after)
  inside : Include.Apart (comment c) after
  across : Include.Apart before after
  place : ∀ t, l.expand fallback before = .ok t → Inside t

variable {l : Loader} {name fallback : Option Text} {text plain before c after : Text}

theorem expand_append {a b : Text} (h : Include.Apart a b) : l.expand fallback (a ++ b) =
    (l.expand fallback a).bind fun a' => (l.expand fallback b).map (a' ++ ·) :=
  Include.expand_append h

/-- The includes of a comment fail for the whole text. -/
theorem Commented.error (h : l.Commented fallback before c after) {e : Excess}
    (he : l.expand fallback (comment c) = .error e) :
    l.expand fallback (before ++ (comment c ++ after)) = .error .includes := by
  have hfail : ∃ e, l.expand fallback (before ++ (comment c ++ after)) = .error e := by
    rw [expand_append h.outside, expand_append h.inside, he]
    cases l.expand fallback before with
    | error e' => exact ⟨e', rfl⟩
    | ok t => exact ⟨e, rfl⟩
  obtain ⟨e', he'⟩ := hfail
  rw [he', Include.eq_includes_of_expand he']

/-- What is left of the comment is left out of the xml. -/
theorem Commented.ofXml (h : l.Commented fallback before c after) {c' : Text}
    (hc : l.expand fallback (comment c) = .ok (comment c')) (hc' : isCommentText c' = true)
    (name : Option Text) :
    (l.expand fallback (before ++ (comment c ++ after))).map (Config.ofXml l.resolver name) =
      (l.expand fallback (before ++ after)).map (Config.ofXml l.resolver name) := by
  rw [expand_append h.outside, expand_append h.inside, expand_append h.across, hc]
  cases hbefore : l.expand fallback before with
  | error e => rfl
  | ok t =>
    cases l.expand fallback after with
    | error e => rfl
    | ok u =>
      have hroot := rootOutline?_comment (h.place t hbefore) hc' u
      exact congrArg Except.ok (Config.ofXml_congr hroot l.resolver name)

end Loader
end Crosswalk
