import Mathlib.Data.List.Find
import TemplateBinding.Proofs.Projection
import TemplateBinding.Validation.Structure

/-!
# Elements inside components

The elements reported on the tree are those that lie below a component in the hierarchy, whatever
nodes stand between the two.  Making one of them a member takes back its finding and no other one.
-/
namespace TemplateBinding
set_option autoImplicit false

open BindingTree (Slot)

def Node.kind? (node : Node) : Option Kind := node.binding.map fun binding => binding.kind

namespace Hierarchy

/-- The node is an element, and a component stands above it at or below the root. -/
def IsMisplaced (hierarchy : Hierarchy) (root node : NodeId) : Prop :=
  ∃ origin ∈ hierarchy.subtree root, origin.value.id = node ∧
    origin.value.kind? = some .element ∧ ∃ above ∈ origin.above, above.kind? = some .component

instance (hierarchy : Hierarchy) (root node : NodeId) : Decidable (hierarchy.IsMisplaced root node) :=
  inferInstanceAs (Decidable (∃ origin ∈ hierarchy.subtree root, origin.value.id = node ∧
    origin.value.kind? = some .element ∧ ∃ above ∈ origin.above, above.kind? = some .component))

end Hierarchy

namespace Place

structure IsMisplaced (place : Place Slot) : Prop where
  element : place.value.kind? = some .element
  inside : ∃ slot ∈ place.above, slot.kind? = some .component

variable {place : Place Slot}

theorem isMisplaced_iff : place.IsMisplaced ↔
    place.value.kind? = some .element ∧ ∃ slot ∈ place.above, slot.kind? = some .component :=
  ⟨fun h => ⟨h.element, h.inside⟩, fun h => ⟨h.1, h.2⟩⟩

instance (place : Place Slot) : Decidable place.IsMisplaced := decidable_of_iff' _ isMisplaced_iff

theorem enclosingComponent?_eq_none_iff :
    place.enclosingComponent? = none ↔ ∀ slot ∈ place.above, slot.kind? ≠ some .component := by
  rw [enclosingComponent?, List.find?_eq_none]
  simp only [beq_iff_eq, ne_eq]

theorem mem_above_of_enclosingComponent? {component : Slot}
    (h : place.enclosingComponent? = some component) :
    component ∈ place.above ∧ component.kind? = some .component :=
  ⟨List.mem_of_find?_eq_some h, by simpa using List.find?_some h⟩

theorem IsMisplaced.exists_enclosingComponent? (h : place.IsMisplaced) :
    ∃ component, place.enclosingComponent? = some component := by
  obtain ⟨slot, hSlot, hKind⟩ := h.inside
  refine Option.ne_none_iff_exists'.mp fun hNone => ?_
  exact enclosingComponent?_eq_none_iff.mp hNone slot hSlot hKind

end Place

namespace BindingTree

variable {hierarchy : Hierarchy} {root : NodeId} {tree : BindingTree} {place other : Place Slot}
  {located : Located}

/-! ## What is reported -/

def misplacedIn (component : Slot) (slot : Slot) : Located :=
  .ofSlot slot (.elementUnderComponent slot.displayName component.displayName) (some memberFix)

theorem hierarchyFindingsAt_of_isMisplaced {component : Slot} (h : place.IsMisplaced)
    (hComponent : place.enclosingComponent? = some component) :
    hierarchyFindingsAt place = [misplacedIn component place.value] := by
  rw [hierarchyFindingsAt, if_pos h.element, hComponent]
  rfl

theorem hierarchyFindingsAt_cases (place : Place Slot) :
    (¬place.IsMisplaced ∧ hierarchyFindingsAt place = []) ∨
      place.IsMisplaced ∧ ∃ component, place.enclosingComponent? = some component ∧
        hierarchyFindingsAt place = [misplacedIn component place.value] := by
  by_cases h : place.IsMisplaced
  · obtain ⟨component, hComponent⟩ := h.exists_enclosingComponent?
    exact .inr ⟨h, component, hComponent, hierarchyFindingsAt_of_isMisplaced h hComponent⟩
  · refine .inl ⟨h, ?_⟩
    rw [hierarchyFindingsAt]
    split
    case isTrue hElement =>
      cases hComponent : place.enclosingComponent? with
      | none => rfl
      | some component =>
        exact absurd ⟨hElement, component, Place.mem_above_of_enclosingComponent? hComponent⟩ h
    case isFalse => rfl

theorem hierarchyFindingsAt_eq_nil_iff : hierarchyFindingsAt place = [] ↔ ¬place.IsMisplaced := by
  rcases hierarchyFindingsAt_cases place with ⟨hNot, hNone⟩ | ⟨hMisplaced, component, _, hOne⟩
  · exact iff_of_true hNone hNot
  · exact iff_of_false (by rw [hOne]; exact List.cons_ne_nil _ _) (not_not_intro hMisplaced)

theorem index_of_mem_hierarchyFindingsAt (h : located ∈ hierarchyFindingsAt place) :
    located.index = place.value.index := by
  rcases hierarchyFindingsAt_cases place with ⟨_, hNone⟩ | ⟨_, component, _, hOne⟩
  · rw [hNone] at h
    cases h
  · rw [hOne, List.mem_singleton] at h
    rw [h]
    rfl

theorem mem_hierarchyFindings_iff :
    located ∈ tree.hierarchyFindings ↔ ∃ place ∈ tree.places, place.IsMisplaced ∧
      ∃ component, place.enclosingComponent? = some component ∧
        located = misplacedIn component place.value := by
  rw [hierarchyFindings, List.mem_flatMap]
  refine exists_congr fun place => and_congr_right fun _ => ?_
  rcases hierarchyFindingsAt_cases place with ⟨hNot, hNone⟩ | ⟨hMisplaced, component, hFound, hOne⟩
  · simp [hNone, hNot]
  · simp [hOne, hMisplaced, hFound]

theorem map_target_hierarchyFindings (tree : BindingTree) :
    (tree.hierarchyFindings.map fun located => located.target) =
      (tree.places.filter fun place => place.IsMisplaced).map fun place => place.value.node := by
  rw [hierarchyFindings]
  induction tree.places with
  | nil => rfl
  | cons place places ih =>
    rw [List.flatMap_cons, List.map_append, ih]
    rcases hierarchyFindingsAt_cases place with ⟨hNot, hNone⟩ | ⟨hMisplaced, component, _, hOne⟩
    · rw [hNone, List.filter_cons_of_neg (by simpa using hNot)]
      rfl
    · rw [hOne, List.filter_cons_of_pos (by simpa using hMisplaced)]
      rfl

/-! ## Entries and their nodes -/

theorem exists_component_above_iff {origin : Place Node}
    (h : Represents root origin (place.map Slot.toEntry)) :
    (∃ slot ∈ place.above, slot.kind? = some .component) ↔
      ∃ above ∈ origin.above, above.kind? = some .component := by
  have hAbove : (place.above.map fun slot => (slot.node, slot.binding)) =
      shownAbove root origin.above := by
    rw [← h.above, Place.map, List.map_map]
    rfl
  constructor
  · rintro ⟨slot, hSlot, hKind⟩
    have hShown := List.mem_map_of_mem (f := fun slot : Slot => (slot.node, slot.binding)) hSlot
    rw [hAbove, shownAbove, List.mem_append, List.mem_map, List.mem_singleton] at hShown
    rcases hShown with ⟨above, hIn, hSame⟩ | hTemplate
    · refine ⟨above, (List.mem_filter.mp hIn).1, ?_⟩
      rw [Node.kind?, (Prod.mk.inj hSame).2]
      exact hKind
    · -- The entry for the template stands above all others and has no kind.
      have hNone : slot.binding = none := (Prod.mk.inj hTemplate).2
      rw [Entry.kind?, hNone] at hKind
      cases hKind
  · rintro ⟨above, hIn, hKind⟩
    obtain ⟨binding, hBinding, _⟩ := Option.map_eq_some_iff.mp hKind
    have hBound := List.mem_filter.mpr ⟨hIn, Node.isBound_of_binding hBinding⟩
    have hShown := List.mem_map_of_mem (f := fun node : Node => (node.id, node.binding)) hBound
    have hSlots : (above.id, above.binding) ∈
        place.above.map fun slot => (slot.node, slot.binding) :=
      hAbove ▸ List.mem_append_left _ hShown
    obtain ⟨slot, hSlot, hSame⟩ := List.mem_map.mp hSlots
    refine ⟨slot, hSlot, ?_⟩
    rw [Entry.kind?, (Prod.mk.inj hSame).2]
    exact hKind

/-- Whether an entry is misplaced can be told from the hierarchy. -/
theorem isMisplaced_iff_of_index_ne_zero (hPlace : place ∈ (build hierarchy root).places)
    (hIndex : place.value.index ≠ 0) :
    place.IsMisplaced ↔ hierarchy.IsMisplaced root place.value.node := by
  obtain ⟨origin, hOrigin, hRepresents⟩ := exists_origin hPlace hIndex
  have hIn := (List.mem_filter.mp hOrigin).1
  have hNode : place.value.node = origin.value.id := hRepresents.node
  have hBinding : place.value.binding = origin.value.binding := hRepresents.binding
  have hKind : place.value.kind? = origin.value.kind? := by
    rw [Entry.kind?, hBinding, Node.kind?]
  rw [Place.isMisplaced_iff, hKind, exists_component_above_iff hRepresents, hNode]
  constructor
  · exact fun h => ⟨origin, hIn, rfl, h⟩
  · rintro ⟨found, hFound, hId, h⟩
    rwa [Hierarchy.eq_of_mem_subtree hFound hIn hId] at h

theorem entryNodes_eq (tree : BindingTree) :
    tree.entryNodes =
      (tree.slots.children.places [tree.slots.root]).map fun place => place.value.node := by
  have hChildren : tree.slots.children.map Slot.toEntry = tree.children :=
    congrArg Tree.children (map_toEntry_slots tree)
  rw [entryNodes, ← hChildren, Forest.values_map, List.map_map,
    ← Forest.map_value_places [tree.slots.root], List.map_map]
  rfl

theorem places_eq_cons (tree : BindingTree) :
    tree.places = ⟨[], tree.slots.root, tree.slots.children⟩ ::
      tree.slots.children.places [tree.slots.root] := rfl

theorem map_target_hierarchyFindings_build (hierarchy : Hierarchy) (root : NodeId) :
    ((build hierarchy root).hierarchyFindings.map fun located => located.target) =
      (build hierarchy root).entryNodes.filter fun node => hierarchy.IsMisplaced root node := by
  have hIndices := nodup_index_places (build hierarchy root)
  rw [places_eq_cons, List.map_cons, List.nodup_cons] at hIndices
  rw [map_target_hierarchyFindings, places_eq_cons, entryNodes_eq, List.filter_map,
    List.filter_cons_of_neg (by simp [Place.isMisplaced_iff])]
  congr 1
  refine List.filter_congr fun place hPlace => ?_
  have hIndex : place.value.index ≠ 0 := fun hIndex =>
    hIndices.1 (List.mem_map.mpr ⟨place, hPlace, hIndex⟩)
  have hIn : place ∈ (build hierarchy root).places := List.mem_cons_of_mem _ hPlace
  exact decide_eq_decide.mpr (isMisplaced_iff_of_index_ne_zero hIn hIndex)

/-! ## Making an element a member -/

/-- No component is made or lost, so every entry has the same one around it. -/
theorem enclosingComponent?_map_retype (hPlace : place ∈ tree.places) (hOther : other ∈ tree.places)
    (hElement : place.value.kind? = some .element) :
    (other.map (Slot.retype place.value.index .member)).enclosingComponent? =
      other.enclosingComponent? := by
  have hValue {slot : Slot} (hSlot : slot ∈ other.above)
      (hIndex : slot.index = place.value.index) : slot = place.value :=
    slot_eq_of_index_eq (Tree.mem_values_of_mem_above hOther hSlot)
      (Tree.mem_values_of_mem_places hPlace) hIndex
  have hKind : ∀ slot ∈ other.above,
      ((slot.retype place.value.index .member).kind? == some .component) =
        (slot.kind? == some .component) := by
    intro slot hSlot
    by_cases hIndex : slot.index = place.value.index
    · rw [Slot.retype_of_eq hIndex, hValue hSlot hIndex, hElement,
        Slot.kind?_withKind (Entry.isSome_binding_of_kind? hElement)]
      rfl
    · rw [Slot.retype_of_ne hIndex]
  have hFind := List.find?_congr hKind
  rw [Place.enclosingComponent?, Place.map, List.find?_map, Function.comp_def, hFind]
  cases hFound : other.enclosingComponent? with
  | none => rw [← Place.enclosingComponent?, hFound, Option.map_none]
  | some component =>
    obtain ⟨hAbove, hComponent⟩ := Place.mem_above_of_enclosingComponent? hFound
    rw [← Place.enclosingComponent?, hFound, Option.map_some, Slot.retype_of_ne]
    intro hIndex
    rw [hValue hAbove hIndex, hElement] at hComponent
    cases hComponent

theorem hierarchyFindingsAt_map_retype (hPlace : place ∈ tree.places) (hOther : other ∈ tree.places)
    (hElement : place.value.kind? = some .element) (hDistinct : other ≠ place) :
    hierarchyFindingsAt (other.map (Slot.retype place.value.index .member)) =
      hierarchyFindingsAt other := by
  have hValue : (other.map (Slot.retype place.value.index .member)).value = other.value :=
    Slot.retype_of_ne fun hIndex => hDistinct (place_eq_of_index_eq hOther hPlace hIndex)
  rw [hierarchyFindingsAt, enclosingComponent?_map_retype hPlace hOther hElement, hValue,
    hierarchyFindingsAt]

theorem hierarchyFindingsAt_map_retype_self (hBound : place.value.binding.isSome) :
    hierarchyFindingsAt (place.map (Slot.retype place.value.index .member)) = [] := by
  have hKind : (place.map (Slot.retype place.value.index .member)).value.kind? = some .member := by
    rw [Place.map, Slot.retype_of_eq rfl, Slot.kind?_withKind hBound]
  rw [hierarchyFindingsAt, hKind, if_neg (by decide)]

/-- The suggestion for one element settles its finding and leaves the others alone. -/
theorem hierarchyFindings_withKind_member (hPlace : place ∈ tree.places)
    (hElement : place.value.kind? = some .element) (hOne : hierarchyFindingsAt place = [located]) :
    (tree.withKind place.value.index .member).hierarchyFindings =
      tree.hierarchyFindings.erase located := by
  -- The places before and after this one keep their findings, and it has none any more.
  obtain ⟨before, after, hSplit, hOthers⟩ := exists_split_of_mem (nodup_places tree) hPlace
  have hKept (places : List (Place Slot)) (hPlaces : places ⊆ before ++ after) :
      (places.map (Place.map (Slot.retype place.value.index .member))).flatMap
        hierarchyFindingsAt = places.flatMap hierarchyFindingsAt := by
    rw [List.flatMap_map]
    refine List.flatMap_congr fun other hOther => ?_
    obtain ⟨hIn, hDistinct⟩ := hOthers other (hPlaces hOther)
    exact hierarchyFindingsAt_map_retype hPlace hIn hElement hDistinct
  have hNew : located ∉ before.flatMap hierarchyFindingsAt := by
    intro hLocated
    obtain ⟨other, hOther, hLocated⟩ := List.mem_flatMap.mp hLocated
    obtain ⟨hIn, hDistinct⟩ := hOthers other (List.mem_append_left _ hOther)
    have hIndex := index_of_mem_hierarchyFindingsAt hLocated
    rw [index_of_mem_hierarchyFindingsAt (hOne ▸ List.mem_singleton_self located)] at hIndex
    exact hDistinct (place_eq_of_index_eq hIn hPlace hIndex.symm)
  calc
    (tree.withKind place.value.index .member).hierarchyFindings =
        before.flatMap hierarchyFindingsAt ++ after.flatMap hierarchyFindingsAt := by
      rw [hierarchyFindings, places_withKind, hSplit, List.map_append, List.map_cons,
        List.flatMap_append, List.flatMap_cons, hKept before (List.subset_append_left _ _),
        hKept after (List.subset_append_right _ _),
        hierarchyFindingsAt_map_retype_self (Entry.isSome_binding_of_kind? hElement),
        List.nil_append]
    _ = tree.hierarchyFindings.erase located := by
      rw [hierarchyFindings, hSplit, List.flatMap_append, List.flatMap_cons, hOne,
        List.erase_append_right _ hNew, List.singleton_append, List.erase_cons_head]

/-- The tree tells of every element inside a component, and of nothing else. -/
structure ReportsMisplaced (hierarchy : Hierarchy) (root : NodeId) (tree : BindingTree) : Prop where
  targets : (tree.hierarchyFindings.map fun located => located.target) =
    tree.entryNodes.filter fun node => hierarchy.IsMisplaced root node
  once : (tree.hierarchyFindings.map fun located => located.target).Nodup
  told : ∀ located ∈ tree.hierarchyFindings, ∃ place, tree.find? located.target = some place ∧
    ∃ component, place.enclosingComponent? = some component ∧
      located.index = place.value.index ∧ located.finding = {
        level := .error
        message := "Element '" ++ place.value.displayName ++
          "' cannot be nested inside Component '" ++ component.displayName ++ "'."
        target := place.value.node
        targetPath := place.value.pathText
        suggestedFix := some "convert to Member"
        ruleId := "ELEMENT_UNDER_COMPONENT"
        guarantee := "Components stay reusable: they never contain template-specific Elements." }
  /-- With the kind that is suggested for one element, its finding is gone and no other one. -/
  fixed : ∀ located ∈ tree.hierarchyFindings, ∀ place, tree.find? located.target = some place →
    (tree.withKind place.value.index .member).hierarchyFindings =
      tree.hierarchyFindings.erase located

theorem reportsMisplaced_build (hierarchy : Hierarchy) (root : NodeId) :
    ReportsMisplaced hierarchy root (build hierarchy root) where
  targets := map_target_hierarchyFindings_build hierarchy root
  once := by
    rw [map_target_hierarchyFindings_build]
    exact ((projects_build hierarchy root).once.of_append_left).filter _
  told located hLocated := by
    obtain ⟨place, hPlace, hMisplaced, component, hComponent, rfl⟩ :=
      mem_hierarchyFindings_iff.mp hLocated
    have hBound := Entry.isSome_binding_of_kind? hMisplaced.element
    exact ⟨place, find?_of_mem_places hPlace hBound, component, hComponent, rfl, rfl⟩
  fixed located hLocated place hFind := by
    obtain ⟨other, hOther, hMisplaced, component, hComponent, rfl⟩ :=
      mem_hierarchyFindings_iff.mp hLocated
    have hBound := Entry.isSome_binding_of_kind? hMisplaced.element
    obtain rfl := eq_of_find?_eq_some hFind hOther hBound rfl
    exact hierarchyFindings_withKind_member hOther hMisplaced.element
      (hierarchyFindingsAt_of_isMisplaced hMisplaced hComponent)

end BindingTree

end TemplateBinding
