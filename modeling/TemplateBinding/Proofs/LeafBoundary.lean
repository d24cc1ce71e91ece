import TemplateBinding.Proofs.ErrorFree
import TemplateBinding.Proofs.Projection

/-!
# Leaves as boundaries

A leaf below the root is a boundary: no entry stands for a node below it, and every annotated node
there is recorded once and gets one warning.  The root is no boundary: when it is annotated as a
leaf, the nodes below it have entries like those of any other tree.
-/
namespace TemplateBinding
set_option autoImplicit false

open BindingTree (Slot)

namespace Finding

/-- A warning that the binding of a node has no effect. -/
def isShadowWarning (node : NodeId) (finding : Finding) : Bool :=
  finding.level == .warning && finding.ruleId == Rule.shadowedByLeaf.id && finding.target == node

theorem isShadowWarning_of_isError {finding : Finding} (node : NodeId)
    (h : finding.isError = true) : finding.isShadowWarning node = false := by
  have hLevel : finding.level = .error := beq_iff_eq.mp h
  rw [isShadowWarning, hLevel]
  rfl

end Finding

namespace BindingTree

variable {config : Config} {hierarchy : Hierarchy} {root : NodeId} {place : Place Slot}
  {origin : Place Node}

/-! ## Warnings -/

theorem map_target_shadowFindings (tree : BindingTree) :
    (tree.shadowFindings.map fun located => located.target) = tree.hiddenNodes := by
  rw [shadowFindings, hiddenNodes, shadowed, List.map_flatMap, List.map_flatMap]
  refine List.flatMap_congr fun slot _ => ?_
  rw [shadowFindingsAt, List.map_map, List.map_map]
  rfl

theorem countP_isShadowWarning (config : Config) (tree : BindingTree) (node : NodeId) :
    (tree.validate config).1.countP (Finding.isShadowWarning node) =
      tree.hiddenNodes.count node := by
  -- The other checks report errors only.
  have hErrors {located : List Located} (h : ∀ one ∈ located, one.finding.isError = true) :
      located.countP (fun one => one.finding.isShadowWarning node) = 0 := by
    refine List.countP_eq_zero.mpr fun one hOne => ?_
    rw [Finding.isShadowWarning_of_isError node (h one hOne)]
    exact Bool.false_ne_true
  have hShadow : tree.shadowFindings.countP (fun one => one.finding.isShadowWarning node) =
      tree.shadowFindings.countP fun one => one.target == node := by
    refine List.countP_congr fun one hOne => ?_
    obtain ⟨slot, _, hOne⟩ := List.mem_flatMap.mp hOne
    obtain ⟨hidden, _, rfl⟩ := List.mem_map.mp hOne
    rfl
  have hFindings : (tree.validate config).1 =
      (tree.locatedFindings config).map Located.finding := findings_validate config tree
  rw [hFindings, List.countP_map, locatedFindings]
  simp only [List.countP_append, Function.comp_def, hShadow,
    hErrors fun _ => isError_of_mem_identifierFindings,
    hErrors fun _ => isError_of_mem_conflictFindings,
    hErrors fun _ => isError_of_mem_hierarchyFindings]
  rw [← map_target_shadowFindings, List.count, List.countP_map]
  simp [Function.comp_def]

/-! ## The boundary -/

/-- A node with an entry is the root, or it is shown. -/
theorem origin_cases (hPlace : place ∈ (build hierarchy root).places)
    (hOrigin : origin ∈ hierarchy.subtree root) (hNode : origin.value.id = place.value.node) :
    origin.above = [] ∨ origin.isShown = true := by
  by_cases hIndex : place.value.index = 0
  · left
    rw [eq_top_of_index_eq_zero hPlace hIndex] at hNode
    have hRoot : origin.value.id = root := hNode.trans (root_build hierarchy root).1
    exact Hierarchy.above_eq_nil_of_id_eq hOrigin hRoot
  · right
    obtain ⟨shown, hShown, hRepresents⟩ := exists_origin hPlace hIndex
    obtain ⟨hMem, hShown⟩ := List.mem_filter.mp hShown
    have hSame : shown.value.id = origin.value.id := hRepresents.node.symm.trans hNode.symm
    rw [← Hierarchy.eq_of_mem_subtree hMem hOrigin hSame]
    exact hShown

theorem isHidden_eq_false_of_mem_places (hPlace : place ∈ (build hierarchy root).places)
    (hOrigin : origin ∈ hierarchy.subtree root) (hNode : origin.value.id = place.value.node) :
    origin.isHidden = false := by
  rcases origin_cases hPlace hOrigin hNode with hTop | hShown
  · rw [Place.isHidden, Place.between, hTop]
    rfl
  · rw [Place.isShown, Bool.and_eq_true, Bool.not_eq_true'] at hShown
    exact hShown.2

theorem exists_place_of_isShown (hOrigin : origin ∈ hierarchy.subtree root)
    (hShown : origin.isShown = true) :
    ∃ place ∈ (build hierarchy root).places, place.value.node = origin.value.id := by
  have hMem : origin.value.id ∈ (build hierarchy root).entryNodes := by
    rw [entryNodes_build]
    exact List.mem_map.mpr ⟨origin, List.mem_filter.mpr ⟨hOrigin, hShown⟩, rfl⟩
  obtain ⟨entry, hEntry, hNode⟩ := List.mem_map.mp hMem
  have hValues : entry ∈ (build hierarchy root).values := List.mem_cons_of_mem _ hEntry
  rw [← map_toEntry_slots (build hierarchy root), Tree.values_map, ← Tree.map_value_places,
    List.map_map] at hValues
  obtain ⟨place, hPlace, rfl⟩ := List.mem_map.mp hValues
  exact ⟨place, hPlace, hNode⟩

theorem count_hiddenNodes (hOrigin : origin ∈ hierarchy.subtree root)
    (hShadowed : origin.isShadowed = true) :
    (build hierarchy root).hiddenNodes.count origin.value.id = 1 := by
  rw [hiddenNodes_build]
  refine List.count_eq_one_of_mem ?_ ?_
  · exact (Hierarchy.nodup_ids_subtree hierarchy root).sublist (List.filter_sublist.map _)
  · have hMem := List.mem_filter.mpr ⟨hOrigin, hShadowed⟩
    exact List.mem_map_of_mem (f := fun place : Place Node => place.value.id) hMem

/-- The leaves among certain nodes above a place are boundaries: nothing below them has an entry,
and the annotated nodes there are recorded once and get one warning. -/
structure KeepsBoundaries (boundaries : Place Node → List Node) (config : Config)
    (hierarchy : Hierarchy) (root : NodeId) : Prop where
  uncrossed : ∀ place ∈ (build hierarchy root).places, ∀ origin ∈ hierarchy.subtree root,
    origin.value.id = place.value.node → ∀ leaf ∈ boundaries origin, leaf.isLeaf = false
  recorded : ∀ origin ∈ hierarchy.subtree root, origin.value.isBound = true →
    (∃ leaf ∈ boundaries origin, leaf.isLeaf = true) →
      (build hierarchy root).hiddenNodes.count origin.value.id = 1 ∧
        ((build hierarchy root).validate config).1.countP
          (Finding.isShadowWarning origin.value.id) = 1

theorem keepsBoundaries_between (config : Config) (hierarchy : Hierarchy) (root : NodeId) :
    KeepsBoundaries Place.between config hierarchy root where
  uncrossed place hPlace origin hOrigin hNode leaf hLeaf := by
    have hOpen := isHidden_eq_false_of_mem_places hPlace hOrigin hNode
    rw [Place.isHidden, List.any_eq_false] at hOpen
    exact Bool.eq_false_iff.mpr (hOpen leaf hLeaf)
  recorded origin hOrigin hBound hLeaf := by
    have hShadowed : origin.isShadowed = true := by
      rw [Place.isShadowed, hBound, Bool.true_and, Place.isHidden]
      exact List.any_eq_true.mpr hLeaf
    have hCount := count_hiddenNodes hOrigin hShadowed
    exact ⟨hCount, (countP_isShadowWarning config _ _).trans hCount⟩

/-- The root is no leaf, or no node below it is annotated. -/
def HidesNothing (hierarchy : Hierarchy) (root : NodeId) : Prop :=
  ∀ top, hierarchy.place? root = some top → top.value.isLeaf = true →
    ∀ origin ∈ hierarchy.subtree root, origin.above ≠ [] → origin.value.isBound = false

theorem HidesNothing.mem_between {leaf : Node} (h : HidesNothing hierarchy root)
    (hOrigin : origin ∈ hierarchy.subtree root) (hBound : origin.value.isBound = true)
    (hMem : leaf ∈ origin.above) (hLeaf : leaf.isLeaf = true) : leaf ∈ origin.between := by
  have hBelow : origin.above ≠ [] := List.ne_nil_of_mem hMem
  obtain ⟨top, hTop, hSplit⟩ := Hierarchy.above_of_mem_subtree hOrigin hBelow
  rw [hSplit, List.mem_append, List.mem_singleton] at hMem
  refine hMem.resolve_right ?_
  rintro rfl
  rw [h top hTop hLeaf origin hOrigin hBelow] at hBound
  cases hBound

theorem HidesNothing.keepsBoundaries (config : Config) (h : HidesNothing hierarchy root) :
    KeepsBoundaries Place.above config hierarchy root where
  uncrossed place hPlace origin hOrigin hNode leaf hMem := by
    rw [← Bool.not_eq_true]
    intro hLeaf
    rcases origin_cases hPlace hOrigin hNode with hTop | hShown
    · rw [hTop] at hMem
      cases hMem
    · rw [Place.isShown, Bool.and_eq_true] at hShown
      have hBetween := h.mem_between hOrigin hShown.1 hMem hLeaf
      have hKept := keepsBoundaries_between config hierarchy root
      rw [hKept.uncrossed place hPlace origin hOrigin hNode leaf hBetween] at hLeaf
      cases hLeaf
  recorded origin hOrigin hBound := by
    rintro ⟨leaf, hMem, hLeaf⟩
    have hBetween := h.mem_between hOrigin hBound hMem hLeaf
    have hKept := keepsBoundaries_between config hierarchy root
    exact hKept.recorded origin hOrigin hBound ⟨leaf, hBetween, hLeaf⟩

/-- Below a root that is a leaf, the topmost annotated nodes have entries. -/
theorem KeepsBoundaries.hidesNothing (h : KeepsBoundaries Place.above config hierarchy root) :
    HidesNothing hierarchy root := by
  intro top hTop hLeaf origin hOrigin hBelow
  rw [← Bool.not_eq_true]
  intro hBound
  obtain ⟨shown, hMem, hShownBelow, hShown⟩ :=
    Hierarchy.exists_shown_below hOrigin hBelow (.inl hBound)
  obtain ⟨place, hPlace, hNode⟩ := exists_place_of_isShown hMem hShown
  obtain ⟨other, hOther, hSplit⟩ := Hierarchy.above_of_mem_subtree hMem hShownBelow
  obtain rfl : top = other := Option.some.inj (hTop.symm.trans hOther)
  have hTopAbove : top.value ∈ shown.above := by
    rw [hSplit]
    exact List.mem_concat_self
  rw [h.uncrossed place hPlace shown hMem hNode.symm top.value hTopAbove] at hLeaf
  cases hLeaf

/-- The boundary holds for every leaf below the root.  It holds for the root, too, unless the root
is a leaf and there is an annotated node below it. -/
theorem keepsBoundaries_build (config : Config) (hierarchy : Hierarchy) (root : NodeId) :
    KeepsBoundaries Place.between config hierarchy root ∧
      (KeepsBoundaries Place.above config hierarchy root ↔ HidesNothing hierarchy root) := by
  refine ⟨keepsBoundaries_between config hierarchy root, ?_, ?_⟩
  · exact KeepsBoundaries.hidesNothing
  · exact HidesNothing.keepsBoundaries config

/-- A template that is a leaf itself, with a member below it. -/
def leafMenu : Hierarchy :=
  ⟨⟨{ label := "Menu", binding := some ⟨.leaf, "", "", none⟩ },
    .cons { label := "Row", binding := some ⟨.member, "Row", "Text", none⟩ } .nil .nil⟩, 0⟩

/-- The member has an entry of its own. -/
theorem not_forall_keepsBoundaries_above :
    ¬∀ (config : Config) (hierarchy : Hierarchy) (root : NodeId),
      KeepsBoundaries Place.above config hierarchy root := by
  intro h
  have hOrigin : ∃ origin ∈ leafMenu.subtree 0, origin.value.isBound = true ∧
      (∃ leaf ∈ origin.above, leaf.isLeaf = true) ∧ origin.value.id = 1 := by
    refine ⟨_, List.mem_cons_of_mem _ List.mem_cons_self, ?_⟩
    decide
  obtain ⟨origin, hMem, hBound, hLeaf, hId⟩ := hOrigin
  have hCount := ((h {} leafMenu 0).recorded origin hMem hBound hLeaf).1
  rw [hId] at hCount
  revert hCount
  decide +kernel

end BindingTree

end TemplateBinding
