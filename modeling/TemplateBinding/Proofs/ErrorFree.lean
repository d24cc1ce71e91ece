import TemplateBinding.Proofs.Attachment

/-!
# Trees without errors

Every finding about names, types, conflicts or the hierarchy is an error, and a hidden binding is
only a warning.  So a tree is free of errors exactly when three of the four checks find nothing, and
each of them finds nothing exactly when every entry or scope keeps its rule.
-/
namespace TemplateBinding
set_option autoImplicit false

open BindingTree (Slot)

structure Binding.Sound (config : Config) (binding : Binding) : Prop where
  named : binding.name.isEmpty = false
  free : Identifier.isReserved config binding.name = false
  legal : Identifier.isLegal binding.name = true
  typed : Text.isBlank binding.typeReference = false

theorem Located.isError_finding (located : Located) :
    located.finding.isError = (located.issue.rule.level == .error) := rfl

variable {config : Config}

theorem ite_some_eq_none_iff {α : Type} {condition : Prop} [Decidable condition] {value : α}
    {other : Option α} :
    (if condition then some value else other) = none ↔ ¬condition ∧ other = none := by
  split <;> simp [*]

theorem nameIssue?_eq_none_iff {label : String} {binding : Binding} :
    nameIssue? config label binding = none ↔ binding.name.isEmpty = false ∧
      Identifier.isReserved config binding.name = false ∧
        Identifier.isLegal binding.name = true := by
  simp only [nameIssue?, ite_some_eq_none_iff, Bool.not_eq_true, Bool.not_eq_true',
    Bool.not_eq_false, and_true]

theorem level_of_nameIssue? {label source : String} {binding : Binding} {issue : Issue}
    (h : nameIssue? config label binding = some (issue, source)) : issue.rule.level = .error := by
  rw [nameIssue?] at h
  split at h
  · cases h
    rfl
  · split at h
    · cases h
      rfl
    · split at h
      · cases h
        rfl
      · cases h

namespace BindingTree

variable {tree : BindingTree} {located : Located}

/-! ## Names and types -/

theorem nameFindings_eq_nil_iff {slot : Slot} {binding : Binding} :
    nameFindings config slot binding = [] ↔ nameIssue? config slot.label binding = none := by
  rw [nameFindings]
  cases nameIssue? config slot.label binding with
  | none => simp
  | some found => simp

theorem typeFindings_eq_nil_iff {slot : Slot} {binding : Binding} :
    typeFindings config slot binding = [] ↔ Text.isBlank binding.typeReference = false := by
  rw [typeFindings]
  cases Text.isBlank binding.typeReference <;> simp

theorem identifierFindingsAt_eq_nil_iff {slot : Slot} :
    identifierFindingsAt config slot = [] ↔
      ∀ binding, slot.binding = some binding → binding.kind ≠ .leaf → binding.Sound config := by
  rw [identifierFindingsAt]
  cases hBinding : slot.binding with
  | none => simp
  | some binding =>
    simp only [Option.some.injEq, forall_eq']
    split
    · rename_i hKind
      rw [List.append_eq_nil_iff, nameFindings_eq_nil_iff, typeFindings_eq_nil_iff,
        nameIssue?_eq_none_iff]
      constructor
      · rintro ⟨⟨hNamed, hFree, hLegal⟩, hTyped⟩ _
        exact ⟨hNamed, hFree, hLegal, hTyped⟩
      · intro h
        have hSound := h (Kind.nameable_iff.mp hKind)
        exact ⟨⟨hSound.named, hSound.free, hSound.legal⟩, hSound.typed⟩
    · rename_i hKind
      exact iff_of_true rfl fun hLeaf => absurd (Kind.nameable_iff.mpr hLeaf) hKind

theorem identifierFindings_eq_nil_iff :
    tree.identifierFindings config = [] ↔ ∀ slot ∈ tree.slots.values, ∀ binding,
      slot.binding = some binding → binding.kind ≠ .leaf → binding.Sound config := by
  rw [identifierFindings, List.flatMap_eq_nil_iff]
  exact forall₂_congr fun _ _ => identifierFindingsAt_eq_nil_iff

theorem isError_of_mem_identifierFindings (h : located ∈ tree.identifierFindings config) :
    located.finding.isError = true := by
  obtain ⟨slot, _, h⟩ := List.mem_flatMap.mp h
  rw [identifierFindingsAt] at h
  split at h
  · cases h
  · split at h
    · rcases List.mem_append.mp h with h | h
      · rw [nameFindings] at h
        split at h
        · cases h
        · rename_i hIssue
          rw [List.mem_singleton.mp h, Located.isError_finding, Located.ofSlot]
          exact beq_iff_eq.mpr (level_of_nameIssue? hIssue)
      · rw [typeFindings] at h
        split at h
        · rw [List.mem_singleton.mp h]
          rfl
        · cases h
    · cases h

/-! ## Conflicts -/

theorem conflictFindings_eq_nil_iff :
    tree.conflictFindings = [] ↔ ∀ scope ∈ tree.scopes, ∀ name : String, name.isEmpty = false →
      scope.uses name ≤ 1 := by
  rw [List.eq_nil_iff_forall_not_mem]
  constructor
  · intro h scope hScope name hNamed
    by_contra hMany
    rw [Nat.not_le] at hMany
    obtain ⟨slot, hField, hName⟩ := Place.uses_pos_iff.mp (Nat.zero_lt_of_lt hMany)
    exact h _ (mem_conflictFindings_iff.mpr
      ⟨scope, hScope, slot, hField, name, hName, hNamed, hMany, rfl⟩)
  · intro h located hLocated
    obtain ⟨scope, hScope, _, _, name, _, hNamed, hMany, _⟩ := mem_conflictFindings_iff.mp hLocated
    exact absurd hMany (Nat.not_lt.mpr (h scope hScope name hNamed))

theorem isError_of_mem_conflictFindings (h : located ∈ tree.conflictFindings) :
    located.finding.isError = true := by
  obtain ⟨_, _, _, _, _, _, _, _, rfl⟩ := mem_conflictFindings_iff.mp h
  rfl

theorem ruleId_of_mem_conflictFindings (h : located ∈ tree.conflictFindings) :
    located.finding.ruleId = Rule.nameConflict.id := by
  obtain ⟨_, _, _, _, _, _, _, _, rfl⟩ := mem_conflictFindings_iff.mp h
  rfl

/-! ## Components -/

theorem hierarchyFindings_eq_nil_iff :
    tree.hierarchyFindings = [] ↔ ∀ place ∈ tree.places, place.value.kind? = some .element →
      ∀ slot ∈ place.above, slot.kind? ≠ some .component := by
  rw [hierarchyFindings, List.flatMap_eq_nil_iff]
  refine forall₂_congr fun place _ => ?_
  rw [hierarchyFindingsAt_eq_nil_iff, Place.isMisplaced_iff]
  simp only [not_and, not_exists, ne_eq]

theorem isError_of_mem_hierarchyFindings (h : located ∈ tree.hierarchyFindings) :
    located.finding.isError = true := by
  obtain ⟨_, _, _, _, _, rfl⟩ := mem_hierarchyFindings_iff.mp h
  rfl

theorem ruleId_of_mem_hierarchyFindings (h : located ∈ tree.hierarchyFindings) :
    located.finding.ruleId = Rule.elementUnderComponent.id := by
  obtain ⟨_, _, _, _, _, rfl⟩ := mem_hierarchyFindings_iff.mp h
  rfl

/-! ## All checks -/

theorem ruleId_of_mem_shadowFindings (h : located ∈ tree.shadowFindings) :
    located.finding.ruleId = Rule.shadowedByLeaf.id := by
  obtain ⟨slot, _, h⟩ := List.mem_flatMap.mp h
  obtain ⟨hidden, _, rfl⟩ := List.mem_map.mp h
  rfl

theorem isError_of_mem_shadowFindings (h : located ∈ tree.shadowFindings) :
    located.finding.isError = false := by
  obtain ⟨slot, _, h⟩ := List.mem_flatMap.mp h
  obtain ⟨hidden, _, rfl⟩ := List.mem_map.mp h
  rfl

/-- Validation reports no error; it may report warnings. -/
def ErrorFree (config : Config) (tree : BindingTree) : Prop :=
  ∀ finding ∈ (tree.validate config).1, finding.isError = false

instance (config : Config) (tree : BindingTree) : Decidable (ErrorFree config tree) :=
  inferInstanceAs (Decidable (∀ finding ∈ (tree.validate config).1, finding.isError = false))

theorem errorFree_iff :
    ErrorFree config tree ↔ tree.identifierFindings config = [] ∧ tree.conflictFindings = [] ∧
      tree.hierarchyFindings = [] := by
  have hFindings : (tree.validate config).1 =
      (tree.locatedFindings config).map Located.finding := findings_validate config tree
  rw [ErrorFree, hFindings, List.forall_mem_map]
  simp only [locatedFindings, List.mem_append]
  constructor
  · intro h
    refine ⟨?_, ?_, ?_⟩ <;> refine List.eq_nil_iff_forall_not_mem.mpr fun located hIn => ?_
    · have hError := isError_of_mem_identifierFindings hIn
      rw [h located (.inl (.inl (.inl hIn)))] at hError
      cases hError
    · have hError := isError_of_mem_conflictFindings hIn
      rw [h located (.inl (.inl (.inr hIn)))] at hError
      cases hError
    · have hError := isError_of_mem_hierarchyFindings hIn
      rw [h located (.inl (.inr hIn))] at hError
      cases hError
  · rintro ⟨hIdentifiers, hConflicts, hHierarchy⟩ located hIn
    rw [hIdentifiers, hConflicts, hHierarchy] at hIn
    rcases hIn with ((hIn | hIn) | hIn) | hIn
    · cases hIn
    · cases hIn
    · cases hIn
    · exact isError_of_mem_shadowFindings hIn

theorem errorFree_iff_countP_eq_zero :
    ErrorFree config tree ↔ (tree.validate config).1.countP Finding.isError = 0 := by
  rw [ErrorFree, List.countP_eq_zero]
  simp only [Bool.not_eq_true]

end BindingTree

end TemplateBinding
