import TemplateBinding.Proofs.Planning
import TemplateBinding.Proofs.Rendering

/-!
# Files of several scopes

Names are unique inside one scope only, and the files of a type are found by its name.  So a
conversion can delete files that another scope of the tree needs, but with the default path
templates only where that scope is called like the converted node.
-/
namespace TemplateBinding
set_option autoImplicit false

open BindingTree (Slot)

namespace Identifier

variable {name : String} {c : Char}

theorem continuesName_of_mem (hLegal : isLegal name = true) (h : c ∈ name.toList) :
    continuesName c = true := (isLegalList_iff.mp hLegal).2 c h

theorem not_mem_of_isLegal (hLegal : isLegal name = true) (h : continuesName c = false) :
    c ∉ name.toList := by
  intro hIn
  rw [continuesName_of_mem hLegal hIn] at h
  cases h

end Identifier

namespace Artifact

variable {config : Config} {template path other : String} {entry : Entry} {binding : Binding}

theorem base_ne_append_designer (config : Config) (template : String)
    (hBinding : entry.binding = some binding) (hLegal : Identifier.isLegal binding.name = true)
    (other : String) : base config template entry ≠ other ++ ".Designer" := by
  intro hSame
  have hBase := toList_base_of_binding config template hBinding
  rw [hSame, String.toList_append] at hBase
  have hSplit : other.toList ++ '.' :: "Designer".toList =
      (directory config template entry).toList ++ '/' :: binding.name.toList := hBase
  obtain ⟨-, hSeparator, -⟩ := Text.eq_of_append_cons_eq hSplit (by decide)
    (Identifier.not_mem_of_isLegal hLegal (by decide))
  exact absurd hSeparator (by decide)

theorem mem_both_filesOf {base : String} :
    path ∈ (filesOf base).both ↔ path = base ++ ".cs" ∨ path = base ++ ".Designer" ++ ".cs" := by
  simp [filesOf, ArtifactPair.both]

theorem mem_both_iff (hBinding : entry.binding = some binding)
    (hLegal : Identifier.isLegal binding.name = true)
    (hPath : path ∈ (filesOf (base config template entry)).both) :
    path ∈ (filesOf other).both ↔ other = base config template entry ∨
      other = base config template entry ++ ".Designer" ∧ path = other ++ ".cs" := by
  have hApart := base_ne_append_designer config template hBinding hLegal
  rw [mem_both_filesOf]
  constructor
  · rintro (hOther | hOther) <;> rcases mem_both_filesOf.mp hPath with hOwn | hOwn
    · exact .inl ((String.append_left_inj ".cs").mp (hOther.symm.trans hOwn))
    · have hSame := (String.append_left_inj ".cs").mp (hOther.symm.trans hOwn)
      exact .inr ⟨hSame, hOther⟩
    · exact absurd ((String.append_left_inj ".cs").mp (hOwn.symm.trans hOther)) (hApart other)
    · have hSame := (String.append_left_inj ".cs").mp (hOther.symm.trans hOwn)
      exact .inl ((String.append_left_inj ".Designer").mp hSame)
  · rintro (rfl | ⟨_, hOther⟩)
    · exact mem_both_filesOf.mp hPath
    · exact .inl hOther

theorem typeName_eq_append {entry' : Entry} {suffix : String}
    (hBinding : entry.binding = some binding) (hLegal : Identifier.isLegal binding.name = true)
    (hSuffix : '/' ∉ suffix.toList ∧ '\x7b' ∉ suffix.toList)
    (hSlash : '/' ∉ (typeName template entry').toList)
    (h : base config template entry' = base config template entry ++ suffix) :
    typeName template entry' = binding.name ++ suffix := by
  have hOutside {c : Char} (hChar : Identifier.continuesName c = false) (hIn : c ∉ suffix.toList) :
      c ∉ binding.name.toList ++ suffix.toList :=
    fun h => (List.mem_append.mp h).elim (Identifier.not_mem_of_isLegal hLegal hChar) hIn
  have hBase := toList_base_of_binding config template hBinding
  obtain ⟨last, hBase', hSlash', hName⟩ := exists_last config template entry'
  have hSplit : (directory config template entry').toList ++ '/' :: last =
      (directory config template entry).toList ++
        '/' :: (binding.name.toList ++ suffix.toList) := by
    rw [← hBase', h, String.toList_append, hBase, List.append_assoc, List.cons_append]
  obtain ⟨-, -, hLast⟩ := Text.eq_of_append_cons_eq hSplit (hSlash' hSlash)
    (hOutside (by decide) hSuffix.1)
  apply String.toList_inj.mp
  rw [← hName (.inl (hLast ▸ hOutside (by decide) hSuffix.2)), hLast, String.toList_append]

end Artifact

def BindingTree.typeName (tree : BindingTree) (slot : Slot) : String :=
  Artifact.typeName tree.templateName slot.toEntry

def BindingTree.fileBase (config : Config) (tree : BindingTree) (slot : Slot) : String :=
  Artifact.base config tree.templateName slot.toEntry

def BindingTree.scopeFiles (config : Config) (tree : BindingTree) (scope : Place Slot) :
    List String :=
  (tree.artifacts? config scope.value).elim [] ArtifactPair.both

theorem BindingTree.scopeFiles_of_default {config : Config} {tree : BindingTree}
    {scope : Place Slot} (hTemplates : config.pathTemplates = {}) (hScope : scope ∈ tree.scopes) :
    tree.scopeFiles config scope =
      (Artifact.filesOf (tree.fileBase config scope.value)).both := by
  have hOpens : scope.value.isScope = true := (List.mem_filter.mp hScope).2
  rw [scopeFiles, artifacts?, Artifact.ofEntry?_of_default _ hTemplates hOpens]
  rfl

namespace Conversion

/-- Two elements that each have an element `Item` of their own. -/
def twinItems : Document :=
  let item : Forest Record :=
    .cons { label := "Row", binding := some ⟨.element, "Item", "ItemView", none⟩ } .nil .nil
  { root := { label := "Hud" }
    children := .cons { label := "Left", binding := some ⟨.element, "Left", "LeftView", none⟩ } item
      (.cons { label := "Right", binding := some ⟨.element, "Right", "RightView", none⟩ } item .nil) }

/-- The other `Item` needs the file that a conversion of the first one deletes. -/
theorem not_forall_deleted_unshared :
    ¬ ∀ (config : Config) (hierarchy : Hierarchy) (fileExists : String → Bool) (root node : NodeId)
      (target : Kind), config.pathTemplates = {} →
      (preview config hierarchy fileExists root node target).canExecute = true →
        ∀ own ∈ (BindingTree.build hierarchy root).find? node,
        ∀ scope ∈ (BindingTree.build hierarchy root).scopes,
          scope.value.index ≠ own.value.index →
            ∀ path ∈ (preview config hierarchy fileExists root node target).filesToDelete,
              path ∉ (BindingTree.build hierarchy root).scopeFiles config scope := by
  intro h
  refine absurd (h {} ⟨twinItems, 0⟩ (· == "Assets/Scripts/UI/Hud/Item.cs") 0 2 .member rfl ?_) ?_
  · decide +kernel
  · decide +kernel

variable {config : Config} {template path : String} {entry : Entry} {binding : Binding}

theorem mem_both_of_mem_ownPaths (hTemplates : config.pathTemplates = {})
    (hBinding : entry.binding = some binding)
    (h : path ∈ ownPaths config template binding.kind binding.name) :
    path ∈ (Artifact.filesOf (Artifact.base config template entry)).both := by
  cases hKind : binding.kind.opensScope with
  | false =>
    rw [ownPaths_of_not_opensScope hKind] at h
    cases h
  | true =>
    have hScope : entry.isScope = true := by
      rw [Entry.isScope, Entry.kind?, hBinding]
      exact hKind
    have hFiles := Artifact.ofEntry?_of_default template hTemplates hScope
    rw [Artifact.ofEntry?, hBinding] at hFiles
    dsimp only at hFiles
    rw [ownPaths, hFiles] at h
    exact h

variable {tree : BindingTree} {node : NodeId} {target : Kind} {candidate : Candidate}
  {fileExists : String → Bool} {scope : Place Slot}

theorem Allowed.typeName_eq (h : Allowed config tree node target candidate) :
    tree.typeName candidate.place.value = candidate.binding.name := by
  rw [BindingTree.typeName, Artifact.typeName, h.bound, Option.elim_some]

theorem Allowed.mem_scopeFiles_iff (h : Allowed config tree node target candidate)
    (hTemplates : config.pathTemplates = {}) (hScope : scope ∈ tree.scopes)
    (hPath : path ∈ (plan config tree fileExists candidate target).filesToDelete) :
    path ∈ tree.scopeFiles config scope ↔
      tree.fileBase config scope.value = tree.fileBase config candidate.place.value ∨
        tree.fileBase config scope.value =
            tree.fileBase config candidate.place.value ++ ".Designer" ∧
          path = tree.fileBase config scope.value ++ ".cs" := by
  have hOwn : path ∈ ownPaths config tree.templateName candidate.binding.kind
      candidate.binding.name := (List.mem_filter.mp hPath).1
  rw [BindingTree.scopeFiles_of_default hTemplates hScope]
  exact Artifact.mem_both_iff h.bound h.legal (mem_both_of_mem_ownPaths hTemplates h.bound hOwn)

theorem Allowed.not_mem_scopeFiles (h : Allowed config tree node target candidate)
    (hTemplates : config.pathTemplates = {}) (hScope : scope ∈ tree.scopes)
    (hPath : path ∈ (plan config tree fileExists candidate target).filesToDelete)
    (hSlash : '/' ∉ (tree.typeName scope.value).toList)
    (hOther : tree.typeName scope.value ≠ tree.typeName candidate.place.value)
    (hCompanion : tree.typeName scope.value ≠ tree.typeName candidate.place.value ++ ".Designer") :
    path ∉ tree.scopeFiles config scope := by
  rw [h.typeName_eq] at hOther hCompanion
  intro hShared
  rcases (h.mem_scopeFiles_iff hTemplates hScope hPath).mp hShared with hBase | ⟨hBase, -⟩
  · have hEmpty := hBase.trans String.append_empty.symm
    have hName := Artifact.typeName_eq_append h.bound h.legal (by decide) hSlash hEmpty
    exact hOther (hName.trans String.append_empty)
  · exact hCompanion (Artifact.typeName_eq_append h.bound h.legal (by decide) hSlash hBase)

/-- A deleted file belongs to a scope exactly if its files have the base of the converted node, or
its primary file is the node's companion.  Among scopes whose names have no slash these are called
like the node or its companion; and all scopes of the node's kind and name need what is deleted. -/
theorem preview_filesToDelete (config : Config) (hierarchy : Hierarchy)
    (fileExists : String → Bool) (root node : NodeId) (target : Kind)
    (hTemplates : config.pathTemplates = {})
    (h : (preview config hierarchy fileExists root node target).canExecute = true) :
    let tree := BindingTree.build hierarchy root
    let deleted := (preview config hierarchy fileExists root node target).filesToDelete
    ∃ own : Place Slot, tree.find? node = some own ∧ ∀ scope ∈ tree.scopes,
      (∀ path ∈ deleted, path ∈ tree.scopeFiles config scope ↔
        tree.fileBase config scope.value = tree.fileBase config own.value ∨
          tree.fileBase config scope.value = tree.fileBase config own.value ++ ".Designer" ∧
            path = tree.fileBase config scope.value ++ ".cs") ∧
      ('/' ∉ (tree.typeName scope.value).toList →
        tree.typeName scope.value ≠ tree.typeName own.value →
        tree.typeName scope.value ≠ tree.typeName own.value ++ ".Designer" →
        ∀ path ∈ deleted, path ∉ tree.scopeFiles config scope) ∧
      (scope.value.kind? = own.value.kind? → tree.typeName scope.value = tree.typeName own.value →
        ∀ path ∈ deleted, path ∈ tree.scopeFiles config scope) := by
  intro tree deleted
  obtain ⟨candidate, hAllowed⟩ := exists_allowed_of_canExecute h
  have hDeleted : deleted = (plan config tree fileExists candidate target).filesToDelete :=
    congrArg Report.filesToDelete (planIn_of_allowed hAllowed)
  rw [hDeleted]
  refine ⟨candidate.place, hAllowed.found, fun scope hScope => ⟨?_, ?_, ?_⟩⟩
  · intro path hPath
    exact hAllowed.mem_scopeFiles_iff hTemplates hScope hPath
  · intro hSlash hOther hCompanion path hPath
    exact hAllowed.not_mem_scopeFiles hTemplates hScope hPath hSlash hOther hCompanion
  · intro hKind hSame path hPath
    apply (hAllowed.mem_scopeFiles_iff hTemplates hScope hPath).mpr
    left
    rw [BindingTree.typeName, BindingTree.typeName] at hSame
    rw [BindingTree.fileBase, BindingTree.fileBase, Artifact.base, Artifact.base, hKind, hSame]

theorem preview_filesToDelete_twinItems :
    let hierarchy : Hierarchy := ⟨twinItems, 0⟩
    let fileExists (path : String) := path == "Assets/Scripts/UI/Hud/Item.cs"
    let tree := BindingTree.build hierarchy 0
    (preview {} hierarchy fileExists 0 2 .member).canExecute = true ∧
      (preview {} hierarchy fileExists 0 2 .member).filesToDelete =
        ["Assets/Scripts/UI/Hud/Item.cs"] ∧
      ∃ own, tree.find? 2 = some own ∧ ∀ scope ∈ tree.scopes,
        scope.value.kind? = own.value.kind? → tree.typeName scope.value = tree.typeName own.value →
          "Assets/Scripts/UI/Hud/Item.cs" ∈ tree.scopeFiles {} scope := by
  intro hierarchy fileExists tree
  have hDeleted : (preview {} hierarchy fileExists 0 2 .member).filesToDelete =
      ["Assets/Scripts/UI/Hud/Item.cs"] := by decide +kernel
  obtain ⟨own, hFound, hScopes⟩ :=
    preview_filesToDelete {} hierarchy fileExists 0 2 .member rfl (by decide +kernel)
  refine ⟨by decide +kernel, hDeleted, own, hFound, ?_⟩
  intro scope hScope hKind hName
  rw [hDeleted] at hScopes
  exact (hScopes scope hScope).2.2 hKind hName _ List.mem_cons_self

end Conversion

end TemplateBinding
