import TemplateBinding.BindingTree
import TemplateBinding.Proofs.HierarchyEdit

/-!
# The part of a hierarchy below a root

A tree is built for the nodes at and below a root.  They are listed in pre-order, each with the
nodes above it up to the root.  An annotated node is hidden when a leaf stands between it and the
root; the root itself hides nothing.
-/
namespace TemplateBinding
set_option autoImplicit false

namespace Node

def isBound (node : Node) : Bool := node.binding.isSome

def isLeaf (node : Node) : Bool := node.binding.any fun binding => binding.kind == .leaf

theorem isBound_of_binding {node : Node} {binding : Binding} (h : node.binding = some binding) :
    node.isBound = true := by
  rw [isBound, h, Option.isSome_some]

theorem isBound_of_binding_eq_none {node : Node} (h : node.binding = none) :
    node.isBound = false := by
  rw [isBound, h, Option.isSome_none]

theorem isLeaf_of_binding {node : Node} {binding : Binding} (h : node.binding = some binding) :
    node.isLeaf = (binding.kind == .leaf) := by
  rw [isLeaf, h, Option.any_some]

theorem isLeaf_of_binding_eq_none {node : Node} (h : node.binding = none) :
    node.isLeaf = false := by
  rw [isLeaf, h, Option.any_none]

theorem isBound_of_isLeaf {node : Node} (h : node.isLeaf = true) : node.isBound = true := by
  rw [isLeaf, Option.any_eq_true] at h
  obtain ⟨_, hBinding, _⟩ := h
  exact isBound_of_binding hBinding

end Node

namespace Place

/-- The nodes above a place, but for the topmost. -/
def between (place : Place Node) : List Node := place.above.dropLast

def isHidden (place : Place Node) : Bool := place.between.any Node.isLeaf

/-- The place has an entry in the tree. -/
def isShown (place : Place Node) : Bool := place.value.isBound && !place.isHidden

/-- The place is recorded with the leaf that hides it. -/
def isShadowed (place : Place Node) : Bool := place.value.isBound && place.isHidden

end Place

namespace Hierarchy

variable {hierarchy : Hierarchy} {root : NodeId} {place other : Place Node}

/-- The nodes at and below a root in pre-order, each with the nodes above it up to the root. -/
def subtree (hierarchy : Hierarchy) (root : NodeId) : List (Place Node) :=
  (hierarchy.place? root).elim [] fun top => (Tree.ofPlace top).places

theorem subtree_eq_places {top : Place Node} (h : hierarchy.place? root = some top) :
    hierarchy.subtree root =
      ⟨[], top.value, top.below⟩ :: top.below.places [top.value] := by
  rw [subtree, h]
  rfl

theorem exists_top_of_mem_subtree (h : place ∈ hierarchy.subtree root) :
    ∃ top, hierarchy.place? root = some top ∧ place ∈ (Tree.ofPlace top).places := by
  rw [subtree] at h
  cases hTop : hierarchy.place? root with
  | none =>
    rw [hTop] at h
    cases h
  | some top =>
    rw [hTop] at h
    exact ⟨top, rfl, h⟩

/-- A place of the part is its top, or it stands directly below another place of it. -/
theorem subtree_cases (h : place ∈ hierarchy.subtree root) :
    place.above = [] ∨
      ∃ parent ∈ hierarchy.subtree root, place.above = parent.value :: parent.above := by
  obtain ⟨top, hTop, h⟩ := exists_top_of_mem_subtree h
  rw [subtree, hTop]
  rcases Tree.place_cases h with rfl | ⟨parent, hParent, hAbove, _⟩
  · exact .inl rfl
  · exact .inr ⟨parent, hParent, hAbove⟩

theorem above_of_mem_subtree (h : place ∈ hierarchy.subtree root) (hAbove : place.above ≠ []) :
    ∃ top, hierarchy.place? root = some top ∧ place.above = place.between ++ [top.value] := by
  obtain ⟨top, hTop, h⟩ := exists_top_of_mem_subtree h
  refine ⟨top, hTop, ?_⟩
  rcases List.mem_cons.mp h with rfl | h
  · exact absurd rfl hAbove
  · rw [← List.nil_append [(Tree.ofPlace top).root], Forest.places_append] at h
    obtain ⟨inner, _, rfl⟩ := List.mem_map.mp h
    rw [Place.between, Place.under, List.dropLast_concat]
    rfl

/-- The topmost annotated nodes below the root are shown. -/
theorem exists_shown_below (h : place ∈ hierarchy.subtree root) (hAbove : place.above ≠ [])
    (hBound : place.value.isBound = true ∨ place.isHidden = true) :
    ∃ shown ∈ hierarchy.subtree root, shown.above ≠ [] ∧ shown.isShown = true := by
  -- By induction on the distance from the root: a leaf that hides the place is nearer to it.
  induction hLength : place.above.length generalizing place with
  | zero => exact absurd (List.eq_nil_of_length_eq_zero hLength) hAbove
  | succ length ih =>
    by_cases hHidden : place.isHidden = true
    · obtain hTop | ⟨parent, hParent, hSame⟩ := subtree_cases h
      · exact absurd hTop hAbove
      rw [Place.isHidden, Place.between, hSame] at hHidden
      by_cases hTop : parent.above = []
      · rw [hTop] at hHidden
        cases hHidden
      · rw [List.dropLast_cons_of_ne_nil hTop, List.any_cons, Bool.or_eq_true] at hHidden
        refine ih hParent hTop (hHidden.imp_left Node.isBound_of_isLeaf) ?_
        rw [hSame, List.length_cons] at hLength
        exact Nat.succ.inj hLength
    · refine ⟨place, h, hAbove, ?_⟩
      rw [Place.isShown, hBound.resolve_right hHidden, Bool.eq_false_iff.mpr hHidden]
      rfl

theorem nodup_ids_subtree (hierarchy : Hierarchy) (root : NodeId) :
    ((hierarchy.subtree root).map fun place => place.value.id).Nodup := by
  rw [subtree]
  cases hTop : hierarchy.place? root with
  | none => exact List.nodup_nil
  | some top =>
    have hIds : ((Tree.ofPlace top).places.map fun place => place.value.id) =
        top.values.map Node.id := by
      have hValues := Tree.map_value_places (Tree.ofPlace top)
      exact (List.map_map (f := Place.value)).symm.trans (congrArg (List.map Node.id) hValues)
    rw [Option.elim_some, hIds]
    exact nodup_ids_of_place? hTop

theorem eq_of_mem_subtree (hPlace : place ∈ hierarchy.subtree root)
    (hOther : other ∈ hierarchy.subtree root) (h : place.value.id = other.value.id) :
    place = other :=
  List.inj_on_of_nodup_map (nodup_ids_subtree hierarchy root) hPlace hOther h

theorem above_eq_nil_of_id_eq (h : place ∈ hierarchy.subtree root) (hId : place.value.id = root) :
    place.above = [] := by
  obtain ⟨top, hTop, _⟩ := exists_top_of_mem_subtree h
  have hTopMem : (⟨[], top.value, top.below⟩ : Place Node) ∈ hierarchy.subtree root := by
    rw [subtree_eq_places hTop]
    exact List.mem_cons_self
  rw [eq_of_mem_subtree h hTopMem (hId.trans (id_of_place? hTop).symm)]

end Hierarchy

end TemplateBinding
