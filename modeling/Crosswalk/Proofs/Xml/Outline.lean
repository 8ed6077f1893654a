import Crosswalk.Xml.Reader

/-!
# Outlines

The texts between the children of an element say nothing, but the one before its first child does.
The outline of an element holds that text and the outlines of the other children. Nodes read one
after another are alike when they give the same outline to the element around them:

    Alike ns ms → outline (g.element (joinTexts ns)) = outline (g.element (joinTexts ms))

* `Node.outline`, `outlines`: without the texts behind the first child.
* `Alike ns ms`: the same characters before the first child, and the same outlines.
-/

namespace Crosswalk.Xml

open Text

/-- The characters before the first node that is no text. -/
def lead : List Node → Text
  | .text s :: ns => s ++ lead ns
  | _ => []

/-- The text at the head of some nodes. -/
def leading : List Node → Text
  | .text s :: _ => s
  | _ => []

mutual

def Node.outline : Node → Node
  | .element q attributes declared ns =>
    .element q attributes declared (.text (leading ns) :: outlines ns)
  | n => n

/-- The outlines of the nodes that are no texts. -/
def outlines : List Node → List Node
  | [] => []
  | .text _ :: ns => outlines ns
  | n :: ns => n.outline :: outlines ns

end

variable {n : Node} {ns ms ks : List Node}

theorem outlines_cons (h : n.isText = false) (ns : List Node) :
    outlines (n :: ns) = n.outline :: outlines ns := by
  cases n with
  | text => cases h
  | _ => rw [outlines]; simp

theorem outlines_eq (ns : List Node) :
    outlines ns = (ns.filter fun n => !n.isText).map Node.outline := by
  induction ns with
  | nil => rw [outlines]; rfl
  | cons n ns ih =>
    cases hn : n.isText with
    | false => rw [outlines_cons hn, List.filter_cons_of_pos (by rw [hn]; rfl), List.map_cons, ih]
    | true =>
      cases n with
      | text s => rw [outlines, ih]; rfl
      | _ => cases hn

/-! ## Joined texts -/

theorem lead_joinTexts (ns : List Node) : leading (joinTexts ns) = lead ns := by
  induction ns with
  | nil => rfl
  | cons n ns ih =>
    cases n with
    | text s =>
      rw [joinTexts, lead, ← ih]
      split
      · next h => rw [h]; rfl
      · next hnot =>
        have hlead : leading (joinTexts ns) = [] := by
          unfold leading
          split
          · next h => exact absurd h (hnot _ _)
          · rfl
        split
        · next hs => rw [hs, hlead, List.append_nil]
        · rw [hlead, List.append_nil]; rfl
    | _ => rw [joinTexts, lead] <;> simp [leading]

theorem outlines_joinTexts (ns : List Node) : outlines (joinTexts ns) = outlines ns := by
  induction ns with
  | nil => rfl
  | cons n ns ih =>
    cases n with
    | text s =>
      rw [joinTexts, outlines, ← ih]
      split
      · next h => rw [h, outlines, outlines]
      · split
        · rfl
        · rw [outlines]
    | _ => rw [joinTexts, outlines_cons (by rfl), outlines_cons (by rfl), ih]; simp

/-! ## Alike nodes -/

/-- The nodes give the same outline to an element. -/
structure Alike (ns ms : List Node) : Prop where
  before : lead ns = lead ms
  nodes : outlines ns = outlines ms

namespace Alike

theorem symm (h : Alike ns ms) : Alike ms ns := ⟨h.before.symm, h.nodes.symm⟩

theorem trans (h : Alike ns ms) (h' : Alike ms ks) : Alike ns ks :=
  ⟨h.before.trans h'.before, h.nodes.trans h'.nodes⟩

theorem element (h : Alike ns ms) (q : QName) (attributes : List Attribute) (declared : Spaces) :
    (Node.element q attributes declared (joinTexts ns)).outline =
      (Node.element q attributes declared (joinTexts ms)).outline := by
  rw [Node.outline, Node.outline, lead_joinTexts, lead_joinTexts, outlines_joinTexts,
    outlines_joinTexts, h.before, h.nodes]

theorem text (h : Alike ns ms) (s : Text) : Alike (.text s :: ns) (.text s :: ms) :=
  ⟨congrArg (s ++ ·) h.before, by rw [outlines, outlines, h.nodes]⟩

/-- Two texts that follow one another are like one. -/
theorem texts (s t : Text) (ns : List Node) :
    Alike (.text s :: .text t :: ns) (.text (s ++ t) :: ns) :=
  ⟨(List.append_assoc s t (lead ns)).symm, by rw [outlines, outlines, outlines]⟩

/-- Behind a node that is no text the characters do not matter. -/
theorem cons {m : Node} (hn : n.isText = false) (hm : m.isText = false)
    (hnode : n.outline = m.outline) (h : outlines ns = outlines ms) :
    Alike (n :: ns) (m :: ms) := by
  have hlead : ∀ {k ks}, Node.isText k = false → lead (k :: ks) = [] := by
    intro k ks hk
    cases k with
    | text => cases hk
    | _ => rfl
  refine ⟨(hlead hn).trans (hlead hm).symm, ?_⟩
  rw [outlines_cons hn, outlines_cons hm, hnode, h]

theorem append (h : Alike ns ms) (ks : List Node) : Alike (ks ++ ns) (ks ++ ms) := by
  induction ks with
  | nil => exact h
  | cons k ks ih =>
    cases k with
    | text s => exact ih.text s
    | _ => exact cons rfl rfl rfl ih.nodes

theorem append_of_mem {k : Node} (hk : k ∈ ks) (hnode : k.isText = false)
    (h : outlines ns = outlines ms) : Alike (ks ++ ns) (ks ++ ms) := by
  have hall : ∀ ks, outlines (ks ++ ns) = outlines (ks ++ ms) := by
    intro ks
    rw [outlines_eq, outlines_eq, List.filter_append, List.filter_append, List.map_append,
      List.map_append, ← outlines_eq ns, ← outlines_eq ms, h]
  induction ks with
  | nil => cases hk
  | cons j ks ih =>
    cases j with
    | text s =>
      have hmem : k ∈ ks := by
        rcases List.mem_cons.1 hk with rfl | hmem
        · cases hnode
        · exact hmem
      exact (ih hmem).text s
    | _ => exact cons rfl rfl rfl (hall ks)

end Alike
end Crosswalk.Xml
