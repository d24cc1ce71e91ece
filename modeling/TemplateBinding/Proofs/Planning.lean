import TemplateBinding.Conversion.Plan
import TemplateBinding.Proofs.ErrorFree

/-!
# Allowed conversions

A conversion is planned exactly when the check passes, and the check passes exactly for a binding
that may change, with a sound name and no new structural finding.  An allowed conversion of a tree
without errors leads to a tree without errors.
-/
namespace TemplateBinding.Conversion
set_option autoImplicit false

open BindingTree (Slot ErrorFree)

variable {config : Config} {tree : BindingTree} {node : NodeId} {target : Kind}
  {candidate : Candidate} {fileExists : String → Bool}

theorem convertible_iff {kind : Kind} : kind.convertible = true ↔ kind ≠ .leaf := by
  cases kind <;> decide

/-- The node is in the tree and its binding may take the target kind. -/
structure Allowed (config : Config) (tree : BindingTree) (node : NodeId) (target : Kind)
    (candidate : Candidate) : Prop where
  found : tree.find? node = some candidate.place
  bound : candidate.place.value.binding = some candidate.binding
  changes : candidate.binding.kind ≠ target
  sourceConvertible : candidate.binding.kind ≠ .leaf
  targetConvertible : target ≠ .leaf
  named : candidate.binding.name.isEmpty = false
  free : Identifier.isReserved config candidate.binding.name = false
  legal : Identifier.isLegal candidate.binding.name = true
  noIssue : newIssue? tree (tree.withKind candidate.place.value.index target) = none

theorem Allowed.kind?_ne_leaf (h : Allowed config tree node target candidate) :
    candidate.place.value.kind? ≠ some .leaf := by
  rw [Entry.kind?_of_binding h.bound]
  exact fun hLeaf => h.sourceConvertible (Option.some.inj hLeaf)

theorem refusal?_eq_none_iff {slot : Slot} {binding : Binding} :
    refusal? config tree slot binding target = none ↔
      binding.kind ≠ target ∧ binding.kind ≠ .leaf ∧ target ≠ .leaf ∧
        binding.name.isEmpty = false ∧ Identifier.isReserved config binding.name = false ∧
          Identifier.isLegal binding.name = true ∧
            newIssue? tree (tree.withKind slot.index target) = none := by
  simp only [refusal?, ite_some_eq_none_iff, Option.map_eq_none_iff, Bool.not_eq_true',
    Bool.not_eq_false, Bool.not_eq_true, convertible_iff, ne_eq]

theorem check_eq_ok_iff :
    check config tree node target = .ok candidate ↔
      Allowed config tree node target candidate := by
  rw [check]
  constructor
  · intro h
    cases hFind : tree.find? node with
    | none => simp only [hFind, reduceCtorEq] at h
    | some place =>
      cases hBinding : place.value.binding with
      | none => simp only [hFind, hBinding, reduceCtorEq] at h
      | some binding =>
        cases hRefusal : refusal? config tree place.value binding target with
        | some refusal => simp only [hFind, hBinding, hRefusal, reduceCtorEq] at h
        | none =>
          simp only [hFind, hBinding, hRefusal, Except.ok.injEq] at h
          subst h
          obtain ⟨hChanges, hSource, hTarget, hNamed, hFree, hLegal, hIssue⟩ :=
            refusal?_eq_none_iff.mp hRefusal
          exact ⟨hFind, hBinding, hChanges, hSource, hTarget, hNamed, hFree, hLegal, hIssue⟩
  · intro h
    have hRefusal := refusal?_eq_none_iff.mpr
      ⟨h.changes, h.sourceConvertible, h.targetConvertible, h.named, h.free, h.legal, h.noIssue⟩
    simp only [h.found, h.bound, hRefusal]

/-! ## Plans -/

theorem ownPaths_of_not_opensScope {template name : String} {kind : Kind}
    (h : kind.opensScope = false) : ownPaths config template kind name = [] := by
  cases kind <;> first | rfl | cases h

theorem planIn_of_allowed (h : Allowed config tree node target candidate) :
    planIn config tree fileExists node target = plan config tree fileExists candidate target := by
  rw [planIn, check_eq_ok_iff.mpr h]

theorem errorMessage_planIn_eq_none_iff :
    (planIn config tree fileExists node target).errorMessage = none ↔
      ∃ candidate, Allowed config tree node target candidate := by
  rw [planIn]
  cases hCheck : check config tree node target with
  | error rejection =>
    refine iff_of_false (by simp [Report.sealed, Report.rejected]) ?_
    rintro ⟨candidate, hAllowed⟩
    rw [check_eq_ok_iff.mpr hAllowed] at hCheck
    cases hCheck
  | ok candidate => exact iff_of_true rfl ⟨candidate, check_eq_ok_iff.mp hCheck⟩

theorem exists_allowed_of_canExecute
    (h : (planIn config tree fileExists node target).canExecute = true) :
    ∃ candidate, Allowed config tree node target candidate := by
  rw [planIn] at h
  cases hCheck : check config tree node target with
  | error rejection =>
    rw [hCheck] at h
    cases h
  | ok candidate => exact ⟨candidate, check_eq_ok_iff.mp hCheck⟩

/-! ## Error freedom -/

theorem introduced?_nil_eq_none_iff {after : List Located} :
    introduced? [] after = none ↔ after = [] := by
  rw [introduced?, List.find?_eq_none]
  simp only [List.any_nil, Bool.not_false, not_true_eq_false]
  exact List.eq_nil_iff_forall_not_mem.symm

theorem identifierFindings_withKind {slot : Slot} (hSlot : slot ∈ tree.slots.values)
    (hSource : slot.kind? ≠ some .leaf) (h : tree.identifierFindings config = []) :
    (tree.withKind slot.index target).identifierFindings config = [] := by
  have hSound := BindingTree.identifierFindings_eq_nil_iff.mp h
  refine BindingTree.identifierFindings_eq_nil_iff.mpr fun changed hChanged binding hBinding hLeaf => ?_
  have hValues : (tree.withKind slot.index target).slots.values =
      tree.slots.values.map (Slot.retype slot.index target) := by
    rw [BindingTree.slots_withKind, Tree.values_map]
  rw [hValues] at hChanged
  obtain ⟨old, hOld, rfl⟩ := List.mem_map.mp hChanged
  by_cases hIndex : old.index = slot.index
  · rw [Slot.retype_of_eq hIndex] at hBinding
    obtain ⟨source, hSourceBinding, rfl⟩ := Option.map_eq_some_iff.mp hBinding
    have hKind : source.kind ≠ .leaf := by
      intro hKind
      rw [← BindingTree.slot_eq_of_index_eq hOld hSlot hIndex,
        Entry.kind?_of_binding hSourceBinding, hKind] at hSource
      exact hSource rfl
    have hOldSound := hSound old hOld source hSourceBinding hKind
    exact ⟨hOldSound.named, hOldSound.free, hOldSound.legal, hOldSound.typed⟩
  · rw [Slot.retype_of_ne hIndex] at hBinding
    exact hSound old hOld binding hBinding hLeaf

theorem Allowed.errorFree_withKind (h : Allowed config tree node target candidate)
    (hFree : ErrorFree config tree) :
    ErrorFree config (tree.withKind candidate.place.value.index target) := by
  obtain ⟨hIdentifiers, hConflicts, hHierarchy⟩ := BindingTree.errorFree_iff.mp hFree
  obtain ⟨hPlace, _, _⟩ := BindingTree.find?_eq_some h.found
  have hIssue := h.noIssue
  -- The check compares with the findings before, and there are none.
  rw [newIssue?, hHierarchy, hConflicts, Option.or_eq_none_iff, introduced?_nil_eq_none_iff,
    introduced?_nil_eq_none_iff] at hIssue
  refine BindingTree.errorFree_iff.mpr ⟨?_, hIssue.2, hIssue.1⟩
  exact identifierFindings_withKind (Tree.mem_values_of_mem_places hPlace) h.kind?_ne_leaf
    hIdentifiers

end TemplateBinding.Conversion
