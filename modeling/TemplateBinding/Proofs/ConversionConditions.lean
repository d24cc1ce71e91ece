import TemplateBinding.Proofs.Planning
import TemplateBinding.Proofs.StructuralFindings

/-!
# What a conversion must not do

The check compares the findings about two whole trees, but only the surroundings of the converted
node decide.  An element must not come to stand in a component; and where a scope is dissolved, its
fields must not share a name with fields around it, unless both sides repeat that name already.
-/
namespace TemplateBinding
set_option autoImplicit false

open BindingTree (Slot)

namespace BindingTree

variable {hierarchy : Hierarchy} {root : NodeId} {place scope other : Place Slot} {slot old : Slot}
  {source : Kind} {before after : List Slot} {name : String}

/-! ## Nodes of fields -/

theorem eq_of_mem_members_of_node_eq (hScope : scope ∈ (build hierarchy root).scopes)
    (hOther : other ∈ (build hierarchy root).scopes) (hOld : old ∈ scope.members)
    (hSlot : slot ∈ other.members) (h : old.node = slot.node) : old = slot := by
  obtain ⟨_, _, hOldBinding, _⟩ := mem_members hOld
  obtain ⟨_, _, hBinding, _⟩ := mem_members hSlot
  refine slot_eq_of_node_eq (mem_slots_of_mem_members (mem_scopes_iff.mp hScope).1 hOld)
    (mem_slots_of_mem_members (mem_scopes_iff.mp hOther).1 hSlot) ?_ ?_ h
  · rw [hOldBinding]
    rfl
  · rw [hBinding]
    rfl

/-- A clash of a field of a scope is a clash in that scope, since it is a field of no other. -/
theorem uses_of_clash (hScope : scope ∈ (build hierarchy root).scopes)
    (hOther : other ∈ (build hierarchy root).scopes) (hSlot : slot ∈ scope.members)
    (hName : slot.name? = some name) (hClash : other.Clashes old) (h : old.node = slot.node) :
    1 < scope.uses name := by
  obtain ⟨hField, shared, hShared, _, hMany⟩ := hClash
  have hSame := eq_of_mem_members_of_node_eq hOther hScope hField hSlot h
  subst hSame
  rw [hName, Option.some_inj] at hShared
  rw [hShared, eq_of_mem_members hScope hOther hSlot hField]
  exact hMany

theorem Surrounds.mergesCleanly
    (hAround : Surrounds (build hierarchy root) scope place source before after)
    (hOpens : source.opensScope = true)
    (h : ∀ other ∈ ((build hierarchy root).withKind place.value.index .member).scopes, ∀ slot,
      other.Clashes slot → ∃ other ∈ (build hierarchy root).scopes, ∃ old, other.Clashes old ∧
        old.node = slot.node) : MergesCleanly place scope := by
  intro name hNamed hPlaceUses hScopeUses
  have hUses := hAround.uses name
  have hMembers := hAround.members
  rw [hOpens, if_pos rfl] at hUses hMembers
  have hMany : 1 < (scope.map (Slot.retype place.value.index .member)).uses name := by
    rw [hAround.uses_retype (by decide), if_neg (by decide)]
    omega
  -- Now every field with the name clashes, so it did before, in its own scope.
  have hClashed {slot : Slot} (hName : slot.name? = some name)
      (hField : slot ∈ (scope.map (Slot.retype place.value.index .member)).members) :
      ∃ other ∈ (build hierarchy root).scopes, ∃ old, other.Clashes old ∧ old.node = slot.node :=
    h _ (hAround.mem_scopes_withKind (binding_root_build hierarchy root) .member) slot
      ⟨hField, name, hName, hNamed, hMany⟩
  constructor
  · obtain ⟨slot, hSlot, hName⟩ := Place.uses_pos_iff.mp hPlaceUses
    have hField : slot ∈ (scope.map (Slot.retype place.value.index .member)).members := by
      rw [hAround.fields .member (by decide), if_neg (by decide)]
      exact List.mem_append_right _ (List.mem_cons_of_mem _ (List.mem_append_left _ hSlot))
    obtain ⟨other, hOther, old, hClash, hNode⟩ := hClashed hName hField
    exact uses_of_clash (hAround.mem_scopes hOpens) hOther hSlot hName hClash hNode
  · obtain ⟨slot, hSlot, hName⟩ := Place.uses_pos_iff.mp hScopeUses
    obtain ⟨changed, hField, hChangedNode, hChangedName⟩ :=
      hAround.exists_mem_retype (by decide : Kind.member ≠ .leaf) (hMembers ▸ hSlot)
    obtain ⟨other, hOther, old, hClash, hNode⟩ := hClashed (hChangedName.trans hName) hField
    exact uses_of_clash hAround.isScope hOther hSlot hName hClash (hNode.trans hChangedNode)

end BindingTree

namespace Conversion

open BindingTree

variable {config : Config} {hierarchy : Hierarchy} {root : NodeId} {tree : BindingTree}
  {place : Place Slot} {kind source : Kind}

/-! ## Introduced findings -/

theorem introduced?_eq_none_iff {before after : List Located} :
    introduced? before after = none ↔ ∀ node, (∃ located ∈ after, located.target = node) →
      ∃ located ∈ before, located.target = node := by
  rw [introduced?, List.find?_eq_none]
  simp only [Bool.not_eq_true', Bool.not_eq_false, List.any_eq_true, beq_iff_eq]
  constructor
  · rintro h _ ⟨located, hLocated, rfl⟩
    exact h located hLocated
  · exact fun h located hLocated => h located.target ⟨located, hLocated, rfl⟩

theorem introduced?_hierarchyFindings {index : Nat} :
    introduced? (build hierarchy root).hierarchyFindings
        ((build hierarchy root).withKind index kind).hierarchyFindings = none ↔
      ∀ inner ∈ (build hierarchy root).places,
        (inner.map (Slot.retype index kind)).IsMisplaced → inner.IsMisplaced := by
  rw [introduced?_eq_none_iff]
  simp only [exists_hierarchyFinding_iff, places_withKind]
  constructor
  · intro h inner hInner hMisplaced
    obtain ⟨other, hOther, hBefore, hNode⟩ := h inner.value.node
      ⟨_, List.mem_map_of_mem hInner, hMisplaced, Slot.node_retype _ _ inner.value⟩
    have hBound := Entry.isSome_binding_of_kind? hMisplaced.element
    rw [Place.map, Slot.isSome_binding_retype] at hBound
    have hSlot := slot_eq_of_node_eq (Tree.mem_values_of_mem_places hOther)
      (Tree.mem_values_of_mem_places hInner) (Entry.isSome_binding_of_kind? hBefore.element)
      hBound hNode
    rw [← place_eq_of_index_eq hOther hInner (congrArg Slot.index hSlot)]
    exact hBefore
  · rintro h _ ⟨changed, hChanged, hMisplaced, rfl⟩
    obtain ⟨inner, hInner, rfl⟩ := List.mem_map.mp hChanged
    exact ⟨inner, hInner, h inner hInner hMisplaced, (Slot.node_retype _ _ inner.value).symm⟩

theorem introduced?_conflictFindings {after : BindingTree} :
    introduced? tree.conflictFindings after.conflictFindings = none ↔
      ∀ other ∈ after.scopes, ∀ slot, other.Clashes slot →
        ∃ other ∈ tree.scopes, ∃ old, other.Clashes old ∧ old.node = slot.node := by
  rw [introduced?_eq_none_iff]
  simp only [exists_conflictFinding_iff]
  constructor
  · intro h other hOther slot hClash
    exact h slot.node ⟨other, hOther, slot, hClash, rfl⟩
  · rintro h _ ⟨other, hOther, slot, hClash, rfl⟩
    exact h other hOther slot hClash

/-! ## The conditions -/

/-- What must hold around an entry before it takes a kind. -/
def Admits (tree : BindingTree) (place : Place Slot) : Kind → Prop
  | .element => ∀ slot ∈ place.above, slot.kind? ≠ some .component
  | .component => ∀ inner ∈ tree.places, place.value ∈ inner.above →
      inner.value.kind? = some .element → ∃ slot ∈ inner.above, slot.kind? = some .component
  | .member => ∃ scope ∈ tree.scopes, scope.value = place.scope ∧ MergesCleanly place scope
  | .leaf => False

theorem keepsPlaces_element (hPlace : place ∈ tree.places) (hKind : place.value.kind? = some source)
    (hChanges : source ≠ .element) :
    (∀ inner ∈ tree.places, (inner.map (Slot.retype place.value.index .element)).IsMisplaced →
      inner.IsMisplaced) ↔ ∀ slot ∈ place.above, slot.kind? ≠ some .component := by
  have hBound := Entry.isSome_binding_of_kind? hKind
  constructor
  · intro h slot hSlot hComponent
    have hMisplaced := h place hPlace (isMisplaced_retype_element hPlace hBound hSlot hComponent)
    have hElement := hMisplaced.element
    rw [hKind] at hElement
    exact hChanges (Option.some.inj hElement)
  · intro h inner hInner hMisplaced
    rcases isMisplaced_of_retype hPlace hBound hInner hMisplaced with
      hBefore | ⟨_, _, slot, hSlot, hComponent⟩ | ⟨hKind, _⟩
    · exact hBefore
    · exact absurd hComponent (h slot hSlot)
    · cases hKind

theorem keepsPlaces_component (hPlace : place ∈ tree.places)
    (hBound : place.value.binding.isSome) :
    (∀ inner ∈ tree.places, (inner.map (Slot.retype place.value.index .component)).IsMisplaced →
      inner.IsMisplaced) ↔
        ∀ inner ∈ tree.places, place.value ∈ inner.above → inner.value.kind? = some .element →
          ∃ slot ∈ inner.above, slot.kind? = some .component := by
  constructor
  · intro h inner hInner hAbove hElement
    exact (h inner hInner (isMisplaced_retype_component hBound hInner hAbove hElement)).inside
  · intro h inner hInner hMisplaced
    rcases isMisplaced_of_retype hPlace hBound hInner hMisplaced with
      hBefore | ⟨hKind, _⟩ | ⟨_, hAbove, hElement⟩
    · exact hBefore
    · cases hKind
    · exact ⟨hElement, h inner hInner hAbove hElement⟩

theorem keepsPlaces_member (hPlace : place ∈ tree.places) (hBound : place.value.binding.isSome) :
    ∀ inner ∈ tree.places, (inner.map (Slot.retype place.value.index .member)).IsMisplaced →
      inner.IsMisplaced := by
  intro inner hInner hMisplaced
  rcases isMisplaced_of_retype hPlace hBound hInner hMisplaced with
    hBefore | ⟨hKind, _⟩ | ⟨hKind, _⟩
  · exact hBefore
  · cases hKind
  · cases hKind

theorem newIssue?_eq_none_iff_admits (hPlace : place ∈ (build hierarchy root).places)
    (hKind : place.value.kind? = some source)
    (hAbove : ∀ slot ∈ place.above, slot.kind? ≠ some .leaf) (hSource : source ≠ .leaf)
    (hTarget : kind ≠ .leaf) (hChanges : source ≠ kind) :
    newIssue? (build hierarchy root)
        ((build hierarchy root).withKind place.value.index kind) = none ↔
      Admits (build hierarchy root) place kind := by
  have hRoot := binding_root_build hierarchy root
  have hBound := Entry.isSome_binding_of_kind? hKind
  obtain ⟨scope, before, after, hAround⟩ := exists_surrounds hRoot hPlace hKind hSource hAbove
  rw [newIssue?, Option.or_eq_none_iff, introduced?_hierarchyFindings,
    introduced?_conflictFindings]
  cases kind with
  | leaf => exact absurd rfl hTarget
  | element =>
    rw [keepsPlaces_element hPlace hKind hChanges]
    refine and_iff_left fun other hOther slot hClash => ?_
    exact hAround.exists_clash_of_withKind hTarget (.inl rfl) hOther hClash
  | component =>
    rw [keepsPlaces_component hPlace hBound]
    refine and_iff_left fun other hOther slot hClash => ?_
    exact hAround.exists_clash_of_withKind hTarget (.inl rfl) hOther hClash
  | member =>
    have hOpens : source.opensScope = true := by
      cases source with
      | member => exact absurd rfl hChanges
      | leaf => exact absurd rfl hSource
      | element => rfl
      | component => rfl
    rw [and_iff_right (keepsPlaces_member hPlace hBound)]
    constructor
    · intro h
      exact ⟨scope, hAround.isScope, hAround.nearest, hAround.mergesCleanly hOpens h⟩
    · rintro ⟨other, hOther, hNearest, hMerges⟩ changed hChanged slot hClash
      have hValue : other.value = scope.value := hNearest.trans hAround.nearest.symm
      have hSame : other = scope := place_eq_of_index_eq (mem_scopes_iff.mp hOther).1
        (mem_scopes_iff.mp hAround.isScope).1 (congrArg Slot.index hValue)
      subst hSame
      exact hAround.exists_clash_of_withKind hTarget (.inr ⟨hOpens, hMerges⟩) hChanged hClash

/-- A binding with a sound name, and with no leaf above, may take another kind exactly if what lies
around it admits this kind. -/
theorem objection?_eq_none_iff {binding : Binding} {target : Kind}
    (hPlace : place ∈ (build hierarchy root).places) (hBinding : place.value.binding = some binding)
    (hAbove : ∀ slot ∈ place.above, slot.kind? ≠ some .leaf)
    (hNamed : binding.name.isEmpty = false)
    (hFree : Identifier.isReserved config binding.name = false)
    (hLegal : Identifier.isLegal binding.name = true) (hSource : binding.kind ≠ .leaf)
    (hTarget : target ≠ .leaf) (hChanges : binding.kind ≠ target) :
    objection? config (build hierarchy root) place.value.node target = none ↔
      Admits (build hierarchy root) place target := by
  have hKind := Entry.kind?_of_binding hBinding
  have hFind := find?_of_mem_places hPlace (Entry.isSome_binding_of_kind? hKind)
  rw [← newIssue?_eq_none_iff_admits hPlace hKind hAbove hSource hTarget hChanges]
  have hRefusal : refusal? config (build hierarchy root) place.value binding target = none ↔
      newIssue? (build hierarchy root) ((build hierarchy root).withKind place.value.index target) =
        none := by
    rw [refusal?_eq_none_iff]
    simp only [ne_eq, hChanges, hSource, hTarget, hNamed, hFree, hLegal, not_false_eq_true,
      true_and]
  rw [← hRefusal, objection?, check, hFind]
  simp only [hBinding]
  cases refusal? config (build hierarchy root) place.value binding target with
  | none => exact iff_of_true rfl rfl
  | some refusal => simp only [reduceCtorEq]

def twoTitles : Hierarchy where
  document := ⟨{ label := "Hud" }, .ofTrees [
    ⟨{ label := "Panel", binding := some ⟨.element, "Panel", "PanelView", none⟩ }, .ofTrees [
      ⟨{ label := "Title", binding := some ⟨.member, "Title", "Text", none⟩ }, .nil⟩]⟩,
    ⟨{ label := "Title", binding := some ⟨.member, "Title", "Text", none⟩ }, .nil⟩]⟩

def panel : Place Slot := (build twoTitles 0).places.get ⟨1, by decide⟩

theorem objection?_eq_none_iff_twoTitles :
    panel ∈ (build twoTitles 0).places ∧
      panel.value.binding = some ⟨.element, "Panel", "PanelView", none⟩ ∧
      (∀ slot ∈ panel.above, slot.kind? ≠ some .leaf) ∧
      objection? {} (build twoTitles 0) panel.value.node .component = none ∧
      (objection? {} (build twoTitles 0) panel.value.node .member = none ↔
        Admits (build twoTitles 0) panel .member) := by
  have hPlace : panel ∈ (build twoTitles 0).places := List.get_mem _ _
  have hBinding : panel.value.binding = some ⟨.element, "Panel", "PanelView", none⟩ := by decide
  have hAbove : ∀ slot ∈ panel.above, slot.kind? ≠ some .leaf := by decide
  have hAdmits : Admits (build twoTitles 0) panel .component := by
    unfold Admits
    decide
  have hFree : Identifier.isReserved {} "Panel" = false := by decide +kernel
  have hLegal : Identifier.isLegal "Panel" = true := by decide +kernel
  have hComponent := objection?_eq_none_iff hPlace hBinding hAbove (by decide) hFree hLegal
    (by decide) (by decide : Kind.component ≠ .leaf) (by decide)
  have hMember := objection?_eq_none_iff hPlace hBinding hAbove (by decide) hFree hLegal
    (by decide) (by decide : Kind.member ≠ .leaf) (by decide)
  exact ⟨hPlace, hBinding, hAbove, hComponent.mpr hAdmits, hMember⟩

end Conversion

end TemplateBinding
