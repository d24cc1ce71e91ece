import TemplateBinding.Proofs.ScopeMerging

/-!
# Fields divided among scopes

The fields of a scope are collected downwards, and the scope of an entry is looked up upwards.  The
two agree: a named entry is a field of the nearest scope above it and of no other one, unless a leaf
stands between the two.  So the scopes of a tree share no field and list theirs in tree order.
-/
namespace TemplateBinding
set_option autoImplicit false

open BindingTree (Slot)

namespace Place

def fieldIndices (place : Place Slot) : List Nat := place.members.map fun slot => slot.index

/-- The entry has a name, and no leaf stands strictly between it and the scope around it. -/
structure IsListed (tree : BindingTree) (place : Place Slot) : Prop where
  kind : place.value.kind? ∈ [some .member, some .element, some .component]
  unhidden : ∀ other ∈ tree.places, other.value ∈ place.above → place.scope ∈ other.above →
    other.value.kind? ≠ some .leaf

end Place

namespace BindingTree

variable {tree : BindingTree} {place scope : Place Slot} {slot : Slot}

theorem isField_iff_kind? :
    slot.isField = true ↔ slot.kind? ∈ [some Kind.member, some .element, some .component] := by
  cases hKind : slot.kind? with
  | none => simp [Entry.isField, hKind]
  | some kind => cases kind <;> simp [Entry.isField_of_kind? hKind, Kind.nameable]

/-! ## Down and up -/

theorem isListed_of_mem_members (hScope : scope ∈ tree.scopes) (hPlace : place ∈ tree.places)
    (h : place.value ∈ scope.members) : scope.value = place.scope ∧ place.IsListed tree := by
  obtain ⟨hScopePlace, hOpens⟩ := mem_scopes_iff.mp hScope
  obtain ⟨inner, hInner, hValue, hField, hMembers⟩ := mem_members_iff.mp h
  obtain rfl : inner.under (scope.value :: scope.above) = place :=
    place_eq_of_index_eq (Tree.under_mem_places hScopePlace hInner) hPlace
      (congrArg Slot.index hValue)
  have hFind := find?_above_under hOpens fun slot hSlot =>
    Entry.isScope_of_kind? (hMembers slot hSlot)
  have hNearest : Place.scope (inner.under (scope.value :: scope.above)) = scope.value := by
    rw [Place.scope, hFind, Option.getD_some]
  refine ⟨hNearest.symm, isField_iff_kind?.mp hField, fun other hOther hBelow hAbove => ?_⟩
  rw [hNearest] at hAbove
  have hLess := index_lt_of_mem_above hOther hAbove
  rcases List.mem_append.mp hBelow with hBetween | hOuter
  · rw [hMembers other.value hBetween]
    decide
  · rcases List.mem_cons.mp hOuter with hSame | hOuter
    · rw [hSame] at hLess
      exact absurd hLess (Nat.lt_irrefl _)
    · exact absurd hLess (Nat.lt_asymm (index_lt_of_mem_above hScopePlace hOuter))

theorem mem_members_of_isListed (hRoot : tree.root.binding = none) (hPlace : place ∈ tree.places)
    (h : place.IsListed tree) :
    ∃ scope ∈ tree.scopes, scope.value = place.scope ∧ place.value ∈ scope.members := by
  have hField := isField_iff_kind?.mpr h.kind
  obtain ⟨binding, hBinding, _⟩ := Entry.isField_iff.mp hField
  have hBound : place.value.binding.isSome := by rw [hBinding, Option.isSome_some]
  obtain ⟨scope, hScope, hValue, inner, hInner, hUnder, hPlain⟩ := exists_scope hRoot hPlace hBound
  refine ⟨scope, hScope, hValue, mem_members_iff.mpr ⟨inner, hInner, ?_, hField, ?_⟩⟩
  · rw [← hUnder]
    rfl
  · intro above hAbove
    refine kind?_eq_member (hPlain above hAbove) ?_
    obtain ⟨front, back, hSplit⟩ := List.append_of_mem hAbove
    have hAboves : place.above = front ++ above :: (back ++ scope.value :: scope.above) := by
      rw [← hUnder, Place.under, hSplit, List.append_assoc, List.cons_append]
    -- The entry between the two stands below the scope, so it is no leaf.
    obtain ⟨other, hOther, rfl, hBack, _⟩ := exists_outer hPlace hAboves
    refine h.unhidden other hOther ?_ ?_
    · rw [hAboves]
      exact List.mem_append_right _ List.mem_cons_self
    · rw [hBack, ← hValue]
      exact List.mem_append_right _ List.mem_cons_self

/-! ## The partition -/

theorem pairwise_fieldIndices (hPlace : place ∈ tree.places) :
    place.fieldIndices.Pairwise (· < ·) :=
  (pairwise_index_below hPlace).sublist ((members_sublist_values place.below).map _)

theorem nodup_fieldIndices (hPlace : place ∈ tree.places) : place.fieldIndices.Nodup :=
  (pairwise_fieldIndices hPlace).imp Nat.ne_of_lt

theorem mem_fieldIndices_iff (hScope : scope ∈ tree.scopes) (hPlace : place ∈ tree.places) :
    place.value.index ∈ scope.fieldIndices ↔ place.value ∈ scope.members := by
  constructor
  · intro h
    obtain ⟨slot, hSlot, hIndex⟩ := List.mem_map.mp h
    rw [← slot_eq_of_index_eq (mem_slots_of_mem_members (mem_scopes_iff.mp hScope).1 hSlot)
      (Tree.mem_values_of_mem_places hPlace) hIndex]
    exact hSlot
  · exact List.mem_map_of_mem

theorem nodup_scopes (tree : BindingTree) : tree.scopes.Nodup := (nodup_places tree).filter _

theorem eq_of_mem_fieldIndices {other : Place Slot} {index : Nat} (hScope : scope ∈ tree.scopes)
    (hOther : other ∈ tree.scopes) (h : index ∈ scope.fieldIndices)
    (hAgain : index ∈ other.fieldIndices) : scope = other := by
  obtain ⟨slot, hSlot, rfl⟩ := List.mem_map.mp h
  obtain ⟨second, hSecond, hSame⟩ := List.mem_map.mp hAgain
  have hSlots := slot_eq_of_index_eq
    (mem_slots_of_mem_members (mem_scopes_iff.mp hOther).1 hSecond)
    (mem_slots_of_mem_members (mem_scopes_iff.mp hScope).1 hSlot) hSame
  exact eq_of_mem_members hScope hOther hSlot (hSlots ▸ hSecond)

theorem nodup_flatMap_fieldIndices (tree : BindingTree) :
    (tree.scopes.flatMap Place.fieldIndices).Nodup := by
  refine List.nodup_flatMap.mpr ⟨fun scope hScope => ?_, ?_⟩
  · exact nodup_fieldIndices (mem_scopes_iff.mp hScope).1
  · refine (nodup_scopes tree).imp_of_mem fun {first second} hFirst hSecond hDistinct => ?_
    intro index hIndex hAgain
    exact hDistinct (eq_of_mem_fieldIndices hFirst hSecond hIndex hAgain)

/-- The named entries that no leaf cuts off from their scopes are divided among the scopes. -/
structure PartitionsFields (tree : BindingTree) : Prop where
  once : (tree.scopes.flatMap Place.fieldIndices).Nodup
  listed_iff : ∀ index, index ∈ tree.scopes.flatMap Place.fieldIndices ↔
    ∃ place ∈ tree.places, place.value.index = index ∧ place.IsListed tree
  /-- The scope that lists an entry is the one found from below. -/
  listedBy_iff : ∀ place ∈ tree.places, ∀ scope ∈ tree.scopes,
    place.value.index ∈ scope.fieldIndices ↔ place.IsListed tree ∧ scope.value = place.scope
  ascending : ∀ scope ∈ tree.scopes, scope.fieldIndices.Pairwise (· < ·)

theorem partitionsFields_of_root (hRoot : tree.root.binding = none) : PartitionsFields tree := by
  have hListedBy : ∀ place ∈ tree.places, ∀ scope ∈ tree.scopes,
      place.value.index ∈ scope.fieldIndices ↔ place.IsListed tree ∧ scope.value = place.scope := by
    intro place hPlace scope hScope
    rw [mem_fieldIndices_iff hScope hPlace]
    constructor
    · exact fun h => (isListed_of_mem_members hScope hPlace h).symm
    · rintro ⟨hListed, hNearest⟩
      obtain ⟨other, hOther, hValue, hMember⟩ := mem_members_of_isListed hRoot hPlace hListed
      rwa [place_eq_of_index_eq (mem_scopes_iff.mp hScope).1 (mem_scopes_iff.mp hOther).1
        (congrArg Slot.index (hNearest.trans hValue.symm))]
  refine ⟨nodup_flatMap_fieldIndices tree, fun index => ?_, hListedBy, fun scope hScope => ?_⟩
  · constructor
    · intro h
      obtain ⟨scope, hScope, hIndex⟩ := List.mem_flatMap.mp h
      obtain ⟨slot, hSlot, rfl⟩ := List.mem_map.mp hIndex
      obtain ⟨place, hPlace, rfl, _⟩ := exists_place_of_mem_fields hScope hSlot
      exact ⟨place, hPlace, rfl, ((hListedBy place hPlace scope hScope).mp hIndex).1⟩
    · rintro ⟨place, hPlace, rfl, hListed⟩
      obtain ⟨scope, hScope, hValue, _⟩ := mem_members_of_isListed hRoot hPlace hListed
      exact List.mem_flatMap.mpr
        ⟨scope, hScope, (hListedBy place hPlace scope hScope).mpr ⟨hListed, hValue⟩⟩
  · exact pairwise_fieldIndices (mem_scopes_iff.mp hScope).1

/-- Every entry of a built tree that has a name belongs to the nearest scope above it and to no
other one, unless a leaf hides it from there. -/
theorem partitionsFields_build (hierarchy : Hierarchy) (root : NodeId) :
    PartitionsFields (build hierarchy root) :=
  partitionsFields_of_root (binding_root_build hierarchy root)

end BindingTree

end TemplateBinding
