import Crosswalk.Host.Bundled
import Crosswalk.Mapping.Xml
import Crosswalk.Proofs.Xml.Comment
import Mathlib.Data.List.Basic

/-!
# Mappings are read off outlines

A mapping in xml does not depend on the texts between the elements of the document:

    rootOutline? s = rootOutline? t → Config.ofXml r name s = Config.ofXml r name t
                                                                              (Config.ofXml_congr)
-/

namespace Crosswalk

open Text Xml

/-! ## Nodes -/

section
variable (name : Text) (n : Node)

@[simp] theorem Xml.Node.name?_outline : n.outline.name? = n.name? := by
  cases n <;> rfl

@[simp] theorem Xml.Node.attribute?_outline : n.outline.attribute? name = n.attribute? name := by
  cases n <;> rfl

@[simp] theorem Xml.Node.leadingText_outline : n.outline.leadingText = n.leadingText := by
  cases n <;> rfl

@[simp] theorem Xml.Node.isNamed_outline : n.outline.isNamed name = n.isNamed name := by
  cases n <;> rfl

/-- What is kept of the children is the same, when texts are not. -/
theorem Xml.Node.filter_outline {p : Node → Bool} (hp : ∀ n, p n.outline = p n)
    (htext : ∀ s, p (.text s) = false) :
    n.outline.children.filter p = (n.children.filter p).map Node.outline := by
  cases n with
  | element q attributes declared ns =>
    rw [Node.outline, Node.children, Node.children, List.filter_cons_of_neg (by simp [htext]),
      outlines_eq, List.filter_map, List.filter_filter]
    refine congrArg _ (List.filter_congr fun m _ => ?_)
    rw [Function.comp_apply, hp]
    cases m with
    | text s => rw [htext]; rfl
    | _ => exact Bool.and_true _
  | _ => rfl

theorem Xml.Node.filterMap_outline {α : Type} {f : Node → Option α} (hf : ∀ n, f n.outline = f n)
    (htext : ∀ s, f (.text s) = none) :
    n.outline.children.filterMap f = n.children.filterMap f := by
  have hkept : ∀ ns : List Node,
      (ns.filter fun n => (f n).isSome).filterMap f = ns.filterMap f := by
    intro ns
    rw [List.filterMap_filter]
    refine List.filterMap_congr fun m _ => ?_
    cases f m <;> simp
  rw [← hkept n.outline.children, ← hkept n.children,
    filter_outline n (fun m => by rw [hf]) (fun s => by rw [htext]; rfl), List.filterMap_map]
  exact List.filterMap_congr fun m _ => hf m

@[simp] theorem Xml.Node.childrenNamed_outline :
    n.outline.childrenNamed name = (n.childrenNamed name).map Node.outline :=
  filter_outline n (isNamed_outline name) fun _ => rfl

@[simp] theorem Xml.Node.child?_outline :
    n.outline.child? name = (n.child? name).map Node.outline := by
  have hfirst := congrArg List.head? (childrenNamed_outline name n)
  rwa [List.head?_map, childrenNamed, childrenNamed, List.head?_filter, List.head?_filter]
    at hfirst

@[simp] theorem Xml.Node.filled?_outline : n.outline.filled? name = n.filled? name := by
  rw [filled?, filled?, attribute?_outline]

end

/-! ## Entries -/

section
variable (r : Resolver) (n : Node)

theorem settingsOf_outline (name : Text) : settingsOf n.outline name = settingsOf n name := by
  unfold settingsOf
  rw [Node.child?_outline]
  cases n.child? name with
  | none => rfl
  | some parent =>
    refine congrArg Pairs.ofList (Node.filterMap_outline parent (fun m => ?_) fun s => rfl)
    rw [Node.name?_outline, Node.leadingText_outline]

theorem pathsOf_outline : pathsOf n.outline = pathsOf n := by
  simp only [pathsOf, Node.filled?_outline]

theorem sourceOf_outline (index : Nat) : sourceOf index n.outline = sourceOf index n := by
  unfold sourceOf
  rw [Node.child?_outline]
  cases n.child? "from" with
  | none => rfl
  | some source => simp only [Option.map_some, pathsOf_outline]

theorem modifierOf_outline (mod : Option Node) :
    modifierOf (mod.map Node.outline) = modifierOf mod := by
  cases mod with
  | none => rfl
  | some n =>
    unfold modifierOf
    simp only [Option.map_some, Node.filled?_outline, Node.attribute?_outline]

theorem fieldOf_outline (target : Option Node) :
    fieldOf (target.map Node.outline) = fieldOf target := by
  cases target with
  | none => rfl
  | some n =>
    unfold fieldOf
    simp only [Option.map_some, Option.bind_some, Node.attribute?_outline]

theorem destinationOf_outline (field : Text) (m : Modifier) :
    destinationOf r n.outline field m = destinationOf r n field m := by
  unfold destinationOf visibilityOf
  simp only [Node.attribute?_outline]

theorem Entry.ofMap_outline (index : Nat) :
    Entry.ofMap r index n.outline = Entry.ofMap r index n := by
  unfold Entry.ofMap
  simp only [sourceOf_outline, Node.child?_outline, fieldOf_outline, modifierOf_outline]
  cases n.child? "to" with
  | none => rfl
  | some target =>
    dsimp only [Option.map_some]
    cases sourceOf index n with
    | error p => rfl
    | ok source =>
      cases fieldOf (some target) with
      | nil => rfl
      | cons c field =>
        dsimp only
        rw [destinationOf_outline]

/-! ## Tables -/

theorem termsOf_outline : termsOf n.outline = termsOf n := by
  unfold termsOf
  rw [Node.child?_outline]
  cases n.child? "list" with
  | none => rfl
  | some terms => simp [List.filterMap_map]

theorem addTerms_outline (tables : Pairs Text (Pairs Text Text)) :
    addTerms tables n.outline = addTerms tables n := by
  unfold addTerms
  rw [Node.attribute?_outline, termsOf_outline]

/-! ## The mapping -/

theorem mapsOf_outline : mapsOf n.outline = (mapsOf n).map fun p => (p.1, p.2.outline) := by
  unfold mapsOf
  simp [List.zip_map_right]

theorem readsNothing_outline : readsNothing n.outline = readsNothing n := by
  unfold readsNothing
  rw [Node.child?_outline, Option.isNone_map]

theorem Config.ofRoot_outline (name : Option Text) :
    Config.ofRoot r name n.outline = Config.ofRoot r name n := by
  unfold Config.ofRoot
  simp only [settingsOf_outline, mapsOf_outline, List.map_map, Function.comp_def,
    Entry.ofMap_outline, readsNothing_outline, Node.childrenNamed_outline, List.foldl_map,
    addTerms_outline]

end

/-- **A mapping in xml** is read off the outline of the root. -/
theorem Config.ofXml_congr {s t : Text} (h : rootOutline? s = rootOutline? t) (r : Resolver)
    (name : Option Text) : Config.ofXml r name s = Config.ofXml r name t := by
  unfold rootOutline? Document.outline? at h
  unfold Config.ofXml
  simp only [Host.xml?]
  cases hs : (Xml.read? false s).bind Document.root? with
  | none =>
    rw [hs] at h
    rw [Option.map_eq_none_iff.1 h.symm]
  | some root =>
    rw [hs] at h
    obtain ⟨root', hroot, houtline⟩ := Option.map_eq_some_iff.1 h.symm
    rw [hroot]
    dsimp only
    rw [← Config.ofRoot_outline r root, ← Config.ofRoot_outline r root', houtline]

end Crosswalk
