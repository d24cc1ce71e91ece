import TemplateBinding.Declarations
import TemplateBinding.Proofs.ErrorFree

/-!
# The gate before the generator

Declarations are refused exactly when validation counts errors.  What passes the gate can be
generated: every field that a scope declares was seen by the checks of names, types and conflicts,
and no element lies inside a component.
-/
namespace TemplateBinding
set_option autoImplicit false

open BindingTree (Slot)

/-- What the generator relies on in the declaration of a scope. -/
structure ScopeDeclaration.WellFormed (config : Config) (scope : ScopeDeclaration) : Prop where
  distinct : (scope.members.map fun field => field.name).Nodup
  named : ∀ field ∈ scope.members, field.name ≠ ""
  legal : ∀ field ∈ scope.members, Identifier.isLegal field.name = true
  free : ∀ field ∈ scope.members,
    field.name ∉ Identifier.keywords ∧ field.name ∉ config.extraReservedWords
  typed : ∀ field ∈ scope.members, Text.isBlank field.typeReference = false
  noLeaf : ∀ field ∈ scope.members, field.kind ≠ .leaf

namespace BindingTree

variable {config : Config} {tree : BindingTree} {place : Place Slot}

/-! ## Declared fields -/

theorem exists_binding_of_mem_fields {field : FieldDeclaration}
    (h : field ∈ place.members.filterMap FieldDeclaration.ofSlot?) :
    ∃ slot ∈ place.members, ∃ binding, slot.binding = some binding ∧ binding.kind ≠ .leaf ∧
      field.name = binding.name ∧ field.kind = binding.kind ∧
        field.typeReference = binding.typeReference := by
  obtain ⟨slot, hSlot, hField⟩ := List.mem_filterMap.mp h
  obtain ⟨_, binding, hBinding, hLeaf⟩ := mem_members hSlot
  rw [FieldDeclaration.ofSlot?, hBinding, Option.map_some, Option.some.injEq] at hField
  subst hField
  exact ⟨slot, hSlot, binding, hBinding, hLeaf, rfl, rfl, rfl⟩

theorem map_name_fields (place : Place Slot) :
    ((place.members.filterMap FieldDeclaration.ofSlot?).map fun field => field.name) =
      place.members.filterMap fun slot => slot.name? := by
  rw [List.map_filterMap]
  refine List.filterMap_congr fun slot hSlot => ?_
  obtain ⟨_, binding, hBinding, hLeaf⟩ := mem_members hSlot
  rw [Entry.name?_of_binding hBinding hLeaf, FieldDeclaration.ofSlot?, hBinding]
  rfl

theorem exists_place_of_mem_declarations {scope : ScopeDeclaration}
    (h : scope ∈ (tree.declarations config).scopes) :
    ∃ place ∈ tree.scopes, scope.members = place.members.filterMap FieldDeclaration.ofSlot? := by
  obtain ⟨place, hPlace, hScope⟩ := List.mem_filterMap.mp h
  obtain ⟨paths, _, rfl⟩ := Option.map_eq_some_iff.mp hScope
  exact ⟨place, hPlace, rfl⟩

/-! ## Sound bindings -/

theorem name_ne_empty_of_sound {binding : Binding}
    (h : binding.Sound config) : binding.name ≠ "" := by
  intro hEmpty
  have hNamed := h.named
  rw [hEmpty] at hNamed
  cases hNamed

theorem wellFormed_of_errorFree (h : ErrorFree config tree) {scope : ScopeDeclaration}
    (hScope : scope ∈ (tree.declarations config).scopes) : scope.WellFormed config := by
  obtain ⟨hIdentifiers, hConflicts, _⟩ := errorFree_iff.mp h
  obtain ⟨place, hPlace, hMembers⟩ := exists_place_of_mem_declarations hScope
  have hSound : ∀ field ∈ scope.members, ∃ binding : Binding, binding.Sound config ∧
      binding.kind ≠ .leaf ∧ field.name = binding.name ∧ field.kind = binding.kind ∧
        field.typeReference = binding.typeReference := by
    intro field hField
    rw [hMembers] at hField
    obtain ⟨slot, hSlot, binding, hBinding, hLeaf, hSame⟩ := exists_binding_of_mem_fields hField
    have hIn := mem_slots_of_mem_members (mem_scopes_iff.mp hPlace).1 hSlot
    exact ⟨binding, identifierFindings_eq_nil_iff.mp hIdentifiers slot hIn binding hBinding hLeaf,
      hLeaf, hSame⟩
  refine ⟨?_, ?_, ?_, ?_, ?_, ?_⟩
  · rw [List.nodup_iff_count_le_one]
    intro name
    by_cases hName : name.isEmpty = false
    · rw [hMembers, map_name_fields, Place.count_names]
      exact conflictFindings_eq_nil_iff.mp hConflicts place hPlace name hName
    · rw [List.count_eq_zero_of_not_mem]
      · exact Nat.zero_le 1
      · intro hIn
        obtain ⟨field, hField, rfl⟩ := List.mem_map.mp hIn
        obtain ⟨binding, hBinding, _, hSame, _⟩ := hSound field hField
        rw [hSame] at hName
        exact hName hBinding.named
  all_goals
    intro field hField
    obtain ⟨binding, hBinding, hLeaf, hName, hKind, hType⟩ := hSound field hField
  · rw [hName]
    exact name_ne_empty_of_sound hBinding
  · rw [hName]
    exact hBinding.legal
  · have hFree := hBinding.free
    simp only [Identifier.isReserved, Bool.or_eq_false_iff, List.contains_eq_mem,
      decide_eq_false_iff_not] at hFree
    rw [hName]
    exact hFree
  · rw [hType]
    exact hBinding.typed
  · rw [hKind]
    exact hLeaf

/-! ## The gate -/

theorem declare_eq_ok_iff {findings : List Finding} {declarations : Declarations} :
    tree.declare config findings = .ok declarations ↔
      findings.countP Finding.isError = 0 ∧ tree.declarations config = declarations := by
  rw [declare]
  split
  · simp only [reduceCtorEq, false_iff, not_and]
    omega
  · simp only [Except.ok.injEq]
    exact ⟨fun h => ⟨by omega, h⟩, fun h => h.2⟩

theorem declare_eq_error_iff {findings : List Finding} {count : Nat} :
    tree.declare config findings = .error (.blockedByErrors count) ↔
      findings.countP Finding.isError = count ∧ 0 < count := by
  rw [declare]
  split
  · simp only [Except.error.injEq, Error.blockedByErrors.injEq]
    constructor
    · rintro rfl
      exact ⟨rfl, by assumption⟩
    · exact fun h => h.1
  · simp only [reduceCtorEq, false_iff, not_and]
    omega

/-- Validated declarations are refused with the number of errors exactly when there are errors, and
what is declared otherwise is fit for the generator. -/
theorem declare_validated (config : Config) (hierarchy : Hierarchy) (root : NodeId) :
    let tree := build hierarchy root
    let findings := (tree.validate config).1
    let errors := findings.countP Finding.isError
    (∀ count, tree.declare config findings = .error (.blockedByErrors count) ↔
      errors = count ∧ 0 < count) ∧
    (errors = 0 → ∃ declarations, tree.declare config findings = .ok declarations) ∧
    ∀ declarations, tree.declare config findings = .ok declarations →
      (∀ scope ∈ declarations.scopes, scope.WellFormed config) ∧
      ∀ place ∈ tree.scopes, place.value.kind? = some .element →
        ∀ slot ∈ place.above, slot.kind? ≠ some .component := by
  intro tree findings errors
  refine ⟨fun count => declare_eq_error_iff, ?_, ?_⟩
  · exact fun hNone => ⟨_, declare_eq_ok_iff.mpr ⟨hNone, rfl⟩⟩
  · intro declarations hDeclare
    obtain ⟨hNone, rfl⟩ := declare_eq_ok_iff.mp hDeclare
    have hFree : ErrorFree config tree := errorFree_iff_countP_eq_zero.mpr hNone
    refine ⟨fun scope hScope => wellFormed_of_errorFree hFree hScope, fun place hPlace => ?_⟩
    exact hierarchyFindings_eq_nil_iff.mp (errorFree_iff.mp hFree).2.2 place
      (mem_scopes_iff.mp hPlace).1

/-- A panel passes the gate, and with a class as a field it does not. -/
theorem declare_validated_panel :
    let panel (name : String) : Hierarchy := ⟨⟨{ label := "Hud" },
      .cons { label := "Panel", binding := some ⟨.element, "Panel", "PanelView", none⟩ }
        (.cons { label := "Title", binding := some ⟨.member, name, "Text", none⟩ } .nil .nil)
        .nil⟩, 0⟩
    let accepted := build (panel "Title") 0
    let refused := build (panel "class") 0
    (∃ declarations, accepted.declare {} (accepted.validate {}).1 = .ok declarations ∧
      ∀ scope ∈ declarations.scopes, scope.WellFormed {}) ∧
    refused.declare {} (refused.validate {}).1 = .error (.blockedByErrors 1) := by
  intro panel accepted refused
  obtain ⟨_, hSome, hSound⟩ := declare_validated {} (panel "Title") 0
  obtain ⟨declarations, hDeclare⟩ := hSome (by decide +kernel)
  refine ⟨⟨declarations, hDeclare, (hSound declarations hDeclare).1⟩, ?_⟩
  exact ((declare_validated {} (panel "class") 0).1 1).mpr (by decide +kernel)

end BindingTree

end TemplateBinding
