import TemplateBinding.Proofs.ErrorFree
import TemplateBinding.Proofs.ScopeMerging

/-!
# Structural findings under a new kind

A finding about components is about a misplaced element, and a finding about names is about a field
that clashes with another one.  A new kind for one entry misplaces at most this entry or elements
below it, and it makes fields clash only where it dissolves a scope.
-/
namespace TemplateBinding
set_option autoImplicit false

open BindingTree (Slot)

namespace Place

/-- A field of the scope that is not the only one with its name. -/
structure Clashes (scope : Place Slot) (slot : Slot) : Prop where
  field : slot ∈ scope.members
  shared : ∃ name : String, slot.name? = some name ∧ name.isEmpty = false ∧ 1 < scope.uses name

end Place

namespace BindingTree

variable {tree : BindingTree} {place inner scope : Place Slot} {slot : Slot} {kind : Kind}
  {node : NodeId}

/-! ## What the findings are about -/

theorem exists_hierarchyFinding_iff :
    (∃ located ∈ tree.hierarchyFindings, located.target = node) ↔
      ∃ place ∈ tree.places, place.IsMisplaced ∧ place.value.node = node := by
  constructor
  · rintro ⟨located, hLocated, rfl⟩
    obtain ⟨place, hPlace, hMisplaced, _, _, rfl⟩ := mem_hierarchyFindings_iff.mp hLocated
    exact ⟨place, hPlace, hMisplaced, rfl⟩
  · rintro ⟨place, hPlace, hMisplaced, rfl⟩
    obtain ⟨component, hComponent⟩ := hMisplaced.exists_enclosingComponent?
    exact ⟨_, mem_hierarchyFindings_iff.mpr
      ⟨place, hPlace, hMisplaced, component, hComponent, rfl⟩, rfl⟩

theorem exists_conflictFinding_iff :
    (∃ located ∈ tree.conflictFindings, located.target = node) ↔
      ∃ scope ∈ tree.scopes, ∃ slot, scope.Clashes slot ∧ slot.node = node := by
  constructor
  · rintro ⟨located, hLocated, rfl⟩
    obtain ⟨scope, hScope, slot, hField, name, hName, hNamed, hMany, rfl⟩ :=
      mem_conflictFindings_iff.mp hLocated
    exact ⟨scope, hScope, slot, ⟨hField, name, hName, hNamed, hMany⟩, rfl⟩
  · rintro ⟨scope, hScope, slot, ⟨hField, name, hName, hNamed, hMany⟩, rfl⟩
    exact ⟨_, mem_conflictFindings_iff.mpr
      ⟨scope, hScope, slot, hField, name, hName, hNamed, hMany, rfl⟩, rfl⟩

/-! ## Misplaced elements -/

theorem kind?_retype_of_ne (h : slot.index ≠ place.value.index) :
    (slot.retype place.value.index kind).kind? = slot.kind? := by
  rw [Slot.retype_of_ne h]

/-- A new kind misplaces the entry itself or elements below it. -/
theorem isMisplaced_of_retype (hPlace : place ∈ tree.places) (hBound : place.value.binding.isSome)
    (hInner : inner ∈ tree.places)
    (h : (inner.map (Slot.retype place.value.index kind)).IsMisplaced) :
    inner.IsMisplaced ∨
      (kind = .element ∧ inner = place ∧ ∃ slot ∈ place.above, slot.kind? = some .component) ∨
        (kind = .component ∧ place.value ∈ inner.above ∧ inner.value.kind? = some .element) := by
  obtain ⟨hElement, component, hComponent, hKind⟩ := h
  obtain ⟨slot, hSlot, rfl⟩ := List.mem_map.mp hComponent
  have hElement : (inner.value.retype place.value.index kind).kind? = some .element := hElement
  by_cases hSame : inner.value.index = place.value.index
  · have hInnerPlace := place_eq_of_index_eq hInner hPlace hSame
    subst hInnerPlace
    rw [Slot.retype_of_eq rfl, Slot.kind?_withKind hBound, Option.some_inj] at hElement
    rw [kind?_retype_of_ne (Nat.ne_of_lt (index_lt_of_mem_above hPlace hSlot))] at hKind
    exact .inr (.inl ⟨hElement, rfl, slot, hSlot, hKind⟩)
  · rw [kind?_retype_of_ne hSame] at hElement
    by_cases hAbove : slot.index = place.value.index
    · have hValue := slot_eq_of_index_eq (Tree.mem_values_of_mem_above hInner hSlot)
        (Tree.mem_values_of_mem_places hPlace) hAbove
      rw [hValue, Slot.retype_of_eq rfl, Slot.kind?_withKind hBound, Option.some_inj] at hKind
      exact .inr (.inr ⟨hKind, hValue ▸ hSlot, hElement⟩)
    · rw [kind?_retype_of_ne hAbove] at hKind
      exact .inl ⟨hElement, slot, hSlot, hKind⟩

theorem isMisplaced_retype_element (hPlace : place ∈ tree.places)
    (hBound : place.value.binding.isSome) (hSlot : slot ∈ place.above)
    (hComponent : slot.kind? = some .component) :
    (place.map (Slot.retype place.value.index .element)).IsMisplaced := by
  refine ⟨?_, _, List.mem_map_of_mem hSlot, ?_⟩
  · rw [Place.map, Slot.retype_of_eq rfl, Slot.kind?_withKind hBound]
  · rw [kind?_retype_of_ne (Nat.ne_of_lt (index_lt_of_mem_above hPlace hSlot)), hComponent]

theorem isMisplaced_retype_component (hBound : place.value.binding.isSome)
    (hInner : inner ∈ tree.places) (hAbove : place.value ∈ inner.above)
    (hElement : inner.value.kind? = some .element) :
    (inner.map (Slot.retype place.value.index .component)).IsMisplaced := by
  have hLess := index_lt_of_mem_above hInner hAbove
  refine ⟨?_, _, List.mem_map_of_mem hAbove, ?_⟩
  · rw [Place.map, kind?_retype_of_ne (Nat.ne_of_gt hLess), hElement]
  · rw [Slot.retype_of_eq rfl, Slot.kind?_withKind hBound]

/-! ## Clashing fields -/

variable {other : Place Slot} {before after : List Slot} {source : Kind}

theorem clashes_of_members_eq (h : scope.Clashes slot) (hMembers : scope.members = other.members) :
    other.Clashes slot := by
  obtain ⟨hField, name, hName, hNamed, hMany⟩ := h
  rw [Place.uses_eq_countP, hMembers, ← Place.uses_eq_countP] at hMany
  exact ⟨hMembers ▸ hField, name, hName, hNamed, hMany⟩

theorem members_map_retype_self (hPlace : place ∈ tree.places) :
    (place.map (Slot.retype place.value.index kind)).members = place.members :=
  congrArg members (below_map_liftAt (Entry.withKind kind) hPlace)

/-- Names that fields of both places have are repeated in each of them. -/
def MergesCleanly (place scope : Place Slot) : Prop :=
  ∀ name : String, name.isEmpty = false → 0 < place.uses name → 0 < scope.uses name →
    1 < place.uses name ∧ 1 < scope.uses name

namespace Surrounds

/-- With a new kind of an entry, fields clash at the entry, around it, or where they did before. -/
theorem clash_cases (hAround : Surrounds tree scope place source before after)
    (hOther : other ∈ (tree.withKind place.value.index kind).scopes) (h : other.Clashes slot) :
    (∃ old ∈ tree.scopes, old.Clashes slot) ∨ (kind.opensScope = true ∧ place.Clashes slot) ∨
      (scope.map (Slot.retype place.value.index kind)).Clashes slot := by
  have hBound := Entry.isSome_binding_of_kind? hAround.kind?
  rw [mem_scopes_iff, places_withKind, List.mem_map] at hOther
  obtain ⟨⟨old, hOld, rfl⟩, hOpens⟩ := hOther
  have hOpens : (old.value.retype place.value.index kind).isScope = true := hOpens
  by_cases hSelf : old.value.index = place.value.index
  · have hSame := place_eq_of_index_eq hOld hAround.isPlace hSelf
    subst hSame
    rw [Slot.retype_of_eq rfl, Entry.isScope_of_kind? (Slot.kind?_withKind hBound)] at hOpens
    exact .inr (.inl ⟨hOpens, clashes_of_members_eq h (members_map_retype_self hOld)⟩)
  · rw [Slot.retype_of_ne hSelf] at hOpens
    have hOldScope := mem_scopes_iff.mpr ⟨hOld, hOpens⟩
    by_cases hScope : old.value.index = scope.value.index
    · rw [place_eq_of_index_eq hOld (mem_scopes_iff.mp hAround.isScope).1 hScope] at h
      exact .inr (.inr h)
    · rw [hAround.nearest] at hScope
      have hMembers : (old.map (Slot.retype place.value.index kind)).members = old.members :=
        members_map_retype_of_ne hAround.isPlace hOldScope hScope
      exact .inl ⟨old, hOldScope, clashes_of_members_eq h hMembers⟩

/-- The fields of an entry clash in it if it is a scope, and else in the scope around it. -/
theorem exists_clash_of_own (hAround : Surrounds tree scope place source before after)
    (h : place.Clashes slot) : ∃ other ∈ tree.scopes, other.Clashes slot := by
  cases hOpens : source.opensScope with
  | true => exact ⟨place, hAround.mem_scopes hOpens, h⟩
  | false =>
    obtain ⟨hField, name, hName, hNamed, hMany⟩ := h
    refine ⟨scope, hAround.isScope, ?_, name, hName, hNamed, ?_⟩
    · rw [hAround.members, hOpens, if_neg (by decide)]
      exact List.mem_append_right _ (List.mem_cons_of_mem _ (List.mem_append_left _ hField))
    · rw [hAround.uses, hOpens, if_neg (by decide)]
      omega

theorem exists_clash_of_around (hAround : Surrounds tree scope place source before after)
    (hTarget : kind ≠ .leaf)
    (hMerge : kind.opensScope = true ∨ source.opensScope = true ∧ MergesCleanly place scope)
    (h : (scope.map (Slot.retype place.value.index kind)).Clashes slot) :
    ∃ other ∈ tree.scopes, ∃ old, other.Clashes old ∧ old.node = slot.node := by
  obtain ⟨hField, name, hName, hNamed, hMany⟩ := h
  rw [hAround.uses_retype hTarget] at hMany
  have hUses := hAround.uses name
  rcases hAround.mem_cases hTarget hField with ⟨old, hOld, hNode, hSame⟩ | ⟨hCloses, hInside⟩
  · have hOuter : 0 < (before ++ place.value :: after).countP fun slot => slot.name? == some name :=
      List.countP_pos_iff.mpr ⟨old, hOld, beq_iff_eq.mpr (hSame.trans hName)⟩
    have hStill : 1 < scope.uses name := by
      rcases hMerge with hOpens | ⟨hOpens, hMerge⟩
      · rw [hOpens, if_pos rfl] at hMany
        omega
      · rw [hOpens, if_pos rfl] at hUses
        rcases Nat.eq_zero_or_pos (place.uses name) with hNone | hSome
        · rw [hNone, ite_self] at hMany
          omega
        · exact (hMerge name hNamed hSome (by omega)).2
    refine ⟨scope, hAround.isScope, old, ?_, hNode⟩
    exact ⟨hAround.mem_members hOld, name, hSame.trans hName, hNamed, hStill⟩
  · rcases hMerge with hOpens | ⟨hOpens, hMerge⟩
    · rw [hOpens] at hCloses
      cases hCloses
    · have hStill : 1 < place.uses name := by
        rw [hOpens, if_pos rfl] at hUses
        rw [hCloses, if_neg (by decide)] at hMany
        rcases Nat.eq_zero_or_pos (scope.uses name) with hNone | hScope
        · omega
        · exact (hMerge name hNamed (Place.uses_pos_iff.mpr ⟨slot, hInside, hName⟩) hScope).1
      refine ⟨place, hAround.mem_scopes hOpens, slot, ?_, rfl⟩
      exact ⟨hInside, name, hName, hNamed, hStill⟩

/-- A new kind introduces no clash unless it dissolves a scope with names used around it. -/
theorem exists_clash_of_withKind (hAround : Surrounds tree scope place source before after)
    (hTarget : kind ≠ .leaf)
    (hMerge : kind.opensScope = true ∨ source.opensScope = true ∧ MergesCleanly place scope)
    (hOther : other ∈ (tree.withKind place.value.index kind).scopes) (h : other.Clashes slot) :
    ∃ other ∈ tree.scopes, ∃ old, other.Clashes old ∧ old.node = slot.node := by
  rcases hAround.clash_cases hOther h with ⟨old, hOld, hClash⟩ | ⟨_, hClash⟩ | hClash
  · exact ⟨old, hOld, slot, hClash, rfl⟩
  · obtain ⟨old, hOld, hClash⟩ := hAround.exists_clash_of_own hClash
    exact ⟨old, hOld, slot, hClash, rfl⟩
  · exact hAround.exists_clash_of_around hTarget hMerge hClash

end Surrounds

end BindingTree

end TemplateBinding
