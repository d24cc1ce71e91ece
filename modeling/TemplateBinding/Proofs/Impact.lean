import Mathlib.Data.List.Forall2
import TemplateBinding.Declarations
import TemplateBinding.Proofs.Planning

/-!
# Impact reports and declarations

The declarations of all scopes are compared before and after a conversion.  A report on an allowed
conversion names every file whose declaration changes: the companion of the scope around the node,
and the files of the node's own declaration, which go with the old kind and come with the new one.
-/
namespace TemplateBinding
set_option autoImplicit false

open BindingTree (Slot)

namespace BindingTree

variable {config : Config} {tree : BindingTree} {place scope : Place Slot} {target : Kind}
  {template : String} {row : Nat × ScopeDeclaration}

/-! ## Declarations by scope -/

def scopeRow (config : Config) (template : String) (place : Place Slot) :
    Option (Nat × ScopeDeclaration) :=
  (ScopeDeclaration.ofPlace? config template place).map fun declaration =>
    (place.value.index, declaration)

/-- The declarations of a tree, each with the index of its scope. -/
def scopeTable (config : Config) (tree : BindingTree) : List (Nat × ScopeDeclaration) :=
  tree.scopes.filterMap (scopeRow config tree.templateName)

theorem map_snd_scopeTable (config : Config) (tree : BindingTree) :
    (tree.scopeTable config).map Prod.snd = (tree.declarations config).scopes := by
  rw [scopeTable, List.map_filterMap, declarations]
  refine List.filterMap_congr fun place _ => ?_
  rw [scopeRow, Option.map_map]
  exact congrFun Option.map_id _

theorem isSome_ofEntry? (config : Config) (template : String) (entry : Entry) :
    (Artifact.ofEntry? config template entry).isSome = entry.isScope := by
  rw [Artifact.ofEntry?]
  cases hBinding : entry.binding with
  | none => exact (Entry.isScope_of_binding_eq_none hBinding).symm
  | some binding =>
    dsimp only
    rw [Entry.isScope_of_binding hBinding, Artifact.ofKind?, Option.isSome_map,
      PathTemplates.isSome_ofKind?, Kind.requiresArtifact]

theorem scopeTable_eq_filterMap_places (config : Config) (tree : BindingTree) :
    tree.scopeTable config = tree.places.filterMap (scopeRow config tree.templateName) := by
  rw [scopeTable, scopes, List.filterMap_filter]
  refine List.filterMap_congr fun place _ => ?_
  split
  · rfl
  · rename_i hScope
    rw [← isSome_ofEntry? config tree.templateName, Option.not_isSome_iff_eq_none] at hScope
    rw [scopeRow, ScopeDeclaration.ofPlace?, hScope]
    rfl

theorem scopeRow_of_ofEntry? {paths : ArtifactPair}
    (h : Artifact.ofEntry? config template place.value.toEntry = some paths) :
    ∃ declaration, scopeRow config template place = some (place.value.index, declaration) ∧
      declaration.primaryPath = paths.primary ∧ declaration.companionPath = paths.companion := by
  rw [scopeRow, ScopeDeclaration.ofPlace?, h]
  exact ⟨_, rfl, rfl, rfl⟩

theorem exists_row_of_ofEntry? {paths : ArtifactPair} (hPlace : place ∈ tree.places)
    (h : Artifact.ofEntry? config tree.templateName place.value.toEntry = some paths) :
    ∃ declaration, (place.value.index, declaration) ∈ tree.scopeTable config ∧
      declaration.primaryPath = paths.primary ∧ declaration.companionPath = paths.companion := by
  obtain ⟨declaration, hRow, hPaths⟩ := scopeRow_of_ofEntry? h
  rw [scopeTable_eq_filterMap_places]
  exact ⟨declaration, List.mem_filterMap.mpr ⟨place, hPlace, hRow⟩, hPaths⟩

/-! ## Declarations after a new kind -/

/-- The rows are for one scope and say the same of it, but for the fields of the given scope. -/
def SameButFields (scope : Nat) (old new : Nat × ScopeDeclaration) : Prop :=
  new.1 = old.1 ∧ { new.2 with members := old.2.members } = old.2 ∧
    (old.1 ≠ scope → new.2 = old.2)

def otherRows (config : Config) (tree : BindingTree) (index : Nat) :
    List (Nat × ScopeDeclaration) :=
  (tree.scopeTable config).filter fun row => row.1 != index

theorem otherRows_eq_filterMap_places (config : Config) (tree : BindingTree) (index : Nat) :
    tree.otherRows config index =
      (tree.places.filter fun place => place.value.index != index).filterMap
        (scopeRow config tree.templateName) := by
  rw [otherRows, scopeTable_eq_filterMap_places, List.filter_filterMap, List.filterMap_filter]
  refine List.filterMap_congr fun place _ => ?_
  rw [scopeRow]
  cases ScopeDeclaration.ofPlace? config tree.templateName place with
  | none => simp
  | some declaration => simp [Option.filter]

theorem scopeRow_map_retype (hPlace : place ∈ tree.places) (hScope : scope ∈ tree.places)
    (hOther : scope.value.index ≠ place.value.index) :
    Option.Rel (SameButFields place.scope.index) (scopeRow config template scope)
      (scopeRow config template (scope.map (Slot.retype place.value.index target))) := by
  have hValue : (scope.map (Slot.retype place.value.index target)).value = scope.value :=
    Slot.retype_of_ne hOther
  rw [scopeRow, scopeRow, ScopeDeclaration.ofPlace?, ScopeDeclaration.ofPlace?, hValue]
  cases hPaths : Artifact.ofEntry? config template scope.value.toEntry with
  | none => exact .none
  | some paths =>
    refine .some ⟨rfl, rfl, fun hDistinct => ?_⟩
    have hOpens : scope.value.isScope = true := by
      rw [← isSome_ofEntry? config template, hPaths]
      rfl
    rw [members_map_retype_of_ne hPlace (mem_scopes_iff.mpr ⟨hScope, hOpens⟩) hDistinct]

theorem forall₂_filterMap {α β : Type} {relation : β → β → Prop} {first second : α → Option β}
    {values : List α} (h : ∀ value ∈ values, Option.Rel relation (first value) (second value)) :
    List.Forall₂ relation (values.filterMap first) (values.filterMap second) := by
  refine List.rel_filterMap (R := fun left right => left ∈ values ∧ left = right) ?_ ?_
  · rintro left _ ⟨hLeft, rfl⟩
    exact h left hLeft
  · exact List.forall₂_same.mpr fun value hValue => ⟨hValue, rfl⟩

/-- Only the scope around the changed entry, and the entry itself, are declared differently. -/
theorem otherRows_withKind (hPlace : place ∈ tree.places) :
    List.Forall₂ (SameButFields place.scope.index) (tree.otherRows config place.value.index)
      ((tree.withKind place.value.index target).otherRows config place.value.index) := by
  rw [otherRows_eq_filterMap_places, otherRows_eq_filterMap_places, places_withKind,
    templateName_withKind, List.filter_map, List.filterMap_map]
  have hKept : (fun scope : Place Slot => scope.value.index != place.value.index) ∘
      Place.map (Slot.retype place.value.index target) =
        fun scope => scope.value.index != place.value.index := by
    funext scope
    exact congrArg (· != place.value.index) (Slot.index_retype _ _ _)
  rw [hKept]
  refine forall₂_filterMap fun scope hScope => ?_
  obtain ⟨hScope, hOther⟩ := List.mem_filter.mp hScope
  exact scopeRow_map_retype hPlace hScope (bne_iff_ne.mp hOther)

end BindingTree

namespace Conversion

open BindingTree (SameButFields)

variable {config : Config} {tree : BindingTree} {node : NodeId} {target : Kind}
  {candidate : Candidate} {fileExists : String → Bool}

/-- The declarations before and after a conversion differ as the report says.  Rows are told apart
by the indices of their scopes. -/
structure Report.Accounts (config : Config) (fileExists : String → Bool)
    (before after : BindingTree) (candidate : Candidate) (target : Kind) (report : Report) :
    Prop where
  others : List.Forall₂ (SameButFields candidate.place.scope.index)
    (before.otherRows config candidate.place.value.index)
    (after.otherRows config candidate.place.value.index)
  modified : ∃ declaration,
    (candidate.place.scope.index, declaration) ∈ before.scopeTable config ∧
      report.filesToModify = [declaration.companionPath]
  created : target.opensScope = true → ∃ declaration,
    (candidate.place.value.index, declaration) ∈ after.scopeTable config ∧
      report.filesToCreate = [declaration.primaryPath, declaration.companionPath]
  createdNone : target.opensScope = false → report.filesToCreate = []
  deleted : candidate.binding.kind.opensScope = true → ∃ declaration,
    (candidate.place.value.index, declaration) ∈ before.scopeTable config ∧
      report.filesToDelete =
        [declaration.primaryPath, declaration.companionPath].filter fileExists
  deletedNone : candidate.binding.kind.opensScope = false → report.filesToDelete = []

theorem exists_row_of_opensScope {place : Place Slot} {binding : Binding}
    (hPlace : place ∈ tree.places) (hBinding : place.value.binding = some binding)
    (h : binding.kind.opensScope = true) : ∃ declaration,
      (place.value.index, declaration) ∈ tree.scopeTable config ∧
        ownPaths config tree.templateName binding.kind binding.name =
          [declaration.primaryPath, declaration.companionPath] := by
  have hEntry : Artifact.ofEntry? config tree.templateName place.value.toEntry =
      Artifact.ofKind? config tree.templateName binding.kind binding.name := by
    rw [Artifact.ofEntry?, hBinding]
  have hSome : (Artifact.ofEntry? config tree.templateName place.value.toEntry).isSome := by
    rw [BindingTree.isSome_ofEntry?, Entry.isScope_of_binding hBinding, h]
  obtain ⟨paths, hPaths⟩ := Option.isSome_iff_exists.mp hSome
  obtain ⟨declaration, hRow, hPrimary, hCompanion⟩ :=
    BindingTree.exists_row_of_ofEntry? hPlace hPaths
  refine ⟨declaration, hRow, ?_⟩
  rw [ownPaths, ← hEntry, hPaths, hPrimary, hCompanion]
  rfl

theorem exists_row_of_scope {place : Place Slot} (hRoot : tree.root.binding = none)
    (hPlace : place ∈ tree.places) (hBound : place.value.binding.isSome) : ∃ declaration,
      (place.scope.index, declaration) ∈ tree.scopeTable config ∧
        (tree.artifacts? config place.scope).elim [] (fun paths => [paths.companion]) =
          [declaration.companionPath] := by
  obtain ⟨hScopeAbove, hOpens⟩ := BindingTree.scope_mem_above hRoot hPlace hBound
  obtain ⟨above, hAbove, hScope⟩ := BindingTree.exists_place_of_mem_above hPlace hScopeAbove
  rw [← hScope] at hOpens ⊢
  rw [← BindingTree.isSome_ofEntry? config tree.templateName] at hOpens
  obtain ⟨paths, hPaths⟩ := Option.isSome_iff_exists.mp hOpens
  obtain ⟨declaration, hRow, _, hCompanion⟩ := BindingTree.exists_row_of_ofEntry? hAbove hPaths
  refine ⟨declaration, hRow, ?_⟩
  rw [BindingTree.artifacts?, hPaths, hCompanion]
  rfl

theorem Allowed.accounts (h : Allowed config tree node target candidate)
    (hRoot : tree.root.binding = none) :
    (plan config tree fileExists candidate target).Accounts config fileExists tree
      (tree.withKind candidate.place.value.index target) candidate target := by
  obtain ⟨hPlace, hBound, _⟩ := BindingTree.find?_eq_some h.found
  refine ⟨BindingTree.otherRows_withKind hPlace,
    exists_row_of_scope hRoot hPlace hBound, ?_, ownPaths_of_not_opensScope, ?_, ?_⟩
  · intro hTarget
    have hAfter : candidate.place.map (Slot.retype candidate.place.value.index target) ∈
        (tree.withKind candidate.place.value.index target).places := by
      rw [BindingTree.places_withKind]
      exact List.mem_map_of_mem hPlace
    have hBinding : (candidate.place.map (Slot.retype candidate.place.value.index target)).value.binding
        = some { candidate.binding with kind := target } := by
      rw [Place.map, Slot.retype_of_eq rfl]
      exact congrArg (Option.map _) h.bound
    obtain ⟨declaration, hRow, hPaths⟩ := exists_row_of_opensScope hAfter hBinding hTarget
    rw [BindingTree.templateName_withKind] at hPaths
    exact ⟨declaration, by simpa [Place.map] using hRow, hPaths⟩
  · intro hSource
    obtain ⟨declaration, hRow, hPaths⟩ := exists_row_of_opensScope hPlace h.bound hSource
    exact ⟨declaration, hRow, congrArg (List.filter fileExists) hPaths⟩
  · intro hSource
    exact congrArg (List.filter fileExists) (ownPaths_of_not_opensScope hSource)

/-- A preview without an objection accounts for everything that changes in the declarations once the
kind is written. -/
theorem preview_accounts (config : Config) (hierarchy : Hierarchy) (fileExists : String → Bool)
    (root node : NodeId) (target : Kind)
    (h : (preview config hierarchy fileExists root node target).errorMessage = none) :
    let before := BindingTree.build hierarchy root
    let after := BindingTree.build (hierarchy.withKind node target) root
    (∀ written, hierarchy.setKind node target = .ok written →
      BindingTree.build written root = after) ∧
    before.declare config [] = .ok ⟨before.templateName, (before.scopeTable config).map Prod.snd⟩ ∧
    after.declare config [] = .ok ⟨before.templateName, (after.scopeTable config).map Prod.snd⟩ ∧
    ∃ candidate : Candidate, before.find? node = some candidate.place ∧
      candidate.place.value.binding = some candidate.binding ∧
        (preview config hierarchy fileExists root node target).Accounts config fileExists before
          after candidate target := by
  intro before after
  obtain ⟨candidate, hAllowed⟩ := errorMessage_planIn_eq_none_iff.mp h
  have hAfter : after = before.withKind candidate.place.value.index target :=
    BindingTree.build_withKind hAllowed.found hAllowed.kind?_ne_leaf hAllowed.targetConvertible
  have hDeclare (tree : BindingTree) : tree.declare config [] =
      .ok ⟨tree.templateName, (tree.scopeTable config).map Prod.snd⟩ := by
    rw [BindingTree.map_snd_scopeTable]
    rfl
  refine ⟨?_, hDeclare before, ?_, candidate, hAllowed.found, hAllowed.bound, ?_⟩
  · intro written hWritten
    rw [(Hierarchy.setKind_eq_ok_iff.mp hWritten).2]
  · rw [hDeclare after, hAfter, BindingTree.templateName_withKind]
  · rw [hAfter, preview, planIn_of_allowed hAllowed]
    exact hAllowed.accounts (BindingTree.binding_root_build hierarchy root)

theorem preview_accounts_inventory :
    let hierarchy : Hierarchy := ⟨⟨{ label := "Hud" },
      .cons { label := "Inventory", binding := some ⟨.element, "Inventory", "InventoryView", none⟩ }
        (.cons { label := "Slot", binding := some ⟨.member, "Slot", "Image", none⟩ } .nil .nil)
        .nil⟩, 0⟩
    let fileExists (path : String) := path == "Assets/Scripts/UI/Hud/Inventory.cs"
    let report := preview {} hierarchy fileExists 0 1 .member
    report.errorMessage = none ∧
      report.filesToModify = ["Assets/Scripts/UI/Hud/Hud.Designer.cs"] ∧
        report.filesToDelete = ["Assets/Scripts/UI/Hud/Inventory.cs"] ∧
          ∃ candidate, report.Accounts {} fileExists (.build hierarchy 0)
            (.build (hierarchy.withKind 1 .member) 0) candidate .member := by
  intro hierarchy fileExists report
  have hMessage : report.errorMessage = none := by decide +kernel
  refine ⟨hMessage, by decide +kernel, by decide +kernel, ?_⟩
  obtain ⟨_, _, _, candidate, _, _, hAccounts⟩ :=
    preview_accounts {} hierarchy fileExists 0 1 .member hMessage
  exact ⟨candidate, hAccounts⟩

end Conversion

end TemplateBinding
