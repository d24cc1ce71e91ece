import TemplateBinding.Conversion.Execution
import TemplateBinding.Proofs.HierarchyEdit

/-!
# What an execution does to the document

Deleting files and persisting leave the document alone.  So an execution, however far it comes,
either leaves the document as it was or writes the new kind, and it does so only if the plan could
be executed.
-/
namespace TemplateBinding
set_option autoImplicit false

/-- The operations of a workspace do nothing to the document but what they are for. -/
class LawfulWorkspace (σ : Type) [Workspace σ] : Prop where
  hierarchy_withHierarchy (state : σ) (hierarchy : Hierarchy) :
    Workspace.hierarchy (Workspace.withHierarchy state hierarchy) = hierarchy
  hierarchy_deleteFile {state next : σ} {path : String} :
    Workspace.deleteFile state path = .ok next →
      Workspace.hierarchy next = Workspace.hierarchy state
  document_persist (state : σ) (root : NodeId) :
    (Workspace.hierarchy (Workspace.persist state root).2).document =
      (Workspace.hierarchy state).document

theorem Hierarchy.document_of_persist {hierarchy next : Hierarchy} {root : NodeId}
    (h : hierarchy.persist root = .ok next) : next.document = hierarchy.document := by
  rw [persist] at h
  split at h
  · cases h
  · cases h
    rfl

theorem TemplateFile.document_persist (file : TemplateFile) (disk : Disk) (root : NodeId) :
    (file.persist disk root).2.1.hierarchy.document = file.hierarchy.document := by
  rw [persist]
  split
  · rfl
  · dsimp only
    split
    · rfl
    · split
      · rfl
      · split
        · rfl
        · rename_i hPersist
          exact Hierarchy.document_of_persist hPersist

theorem exists_ok_of_map_eq_ok {ε α β : Type} {result : Except ε α} {f : α → β} {value : β}
    (h : result.map f = .ok value) : ∃ source, result = .ok source ∧ f source = value := by
  cases result with
  | error error => cases h
  | ok source => exact ⟨source, rfl, Except.ok.inj h⟩

instance : LawfulWorkspace MemoryWorkspace where
  hierarchy_withHierarchy _ _ := rfl
  hierarchy_deleteFile h := by
    obtain ⟨files, _, rfl⟩ := exists_ok_of_map_eq_ok h
    rfl
  document_persist workspace root := by
    rw [Workspace.persist]
    dsimp only [instWorkspaceMemoryWorkspace]
    split
    · rename_i hPersist
      exact Hierarchy.document_of_persist hPersist
    · rfl

instance : LawfulWorkspace DiskWorkspace where
  hierarchy_withHierarchy _ _ := rfl
  hierarchy_deleteFile h := by
    obtain ⟨disk, _, rfl⟩ := exists_ok_of_map_eq_ok h
    rfl
  document_persist workspace root := workspace.file.document_persist workspace.disk root

namespace Conversion

variable {σ : Type} [Workspace σ] [LawfulWorkspace σ]

omit [Workspace σ] [LawfulWorkspace σ] in
theorem Progress.andThen_cases (progress : Progress σ) (next : σ → Progress σ) :
    progress.andThen next = progress ∨ progress.andThen next = next progress.state := by
  rw [andThen]
  cases progress.failure with
  | none => exact .inr rfl
  | some error => exact .inl rfl

theorem hierarchy_deleteFiles (state : σ) (paths : List String) :
    Workspace.hierarchy (deleteFiles state paths).state = Workspace.hierarchy state := by
  induction paths generalizing state with
  | nil => rfl
  | cons path paths ih =>
    rw [deleteFiles]
    split
    · rfl
    · rename_i next hDelete
      rw [ih, LawfulWorkspace.hierarchy_deleteFile hDelete]

theorem hierarchy_changeKind (state : σ) (node : NodeId) (target : Kind) :
    Workspace.hierarchy (changeKind state node target).state = Workspace.hierarchy state ∨
      Workspace.hierarchy (changeKind state node target).state =
        (Workspace.hierarchy state).withKind node target := by
  rw [changeKind]
  cases hKind : (Workspace.hierarchy state).setKind node target with
  | error error => exact .inl rfl
  | ok after =>
    refine .inr ?_
    rw [← (Hierarchy.setKind_eq_ok_iff.mp hKind).2]
    exact LawfulWorkspace.hierarchy_withHierarchy state after

omit [Workspace σ] [LawfulWorkspace σ] in
theorem Progress.state_ofAnswer (answer : Except Error Unit × σ) :
    (Progress.ofAnswer answer).state = answer.2 := by
  obtain ⟨_ | _, state⟩ := answer <;> rfl

theorem document_apply (config : Config) (state : σ) (root node : NodeId) (target : Kind)
    (filesToDelete : List String) :
    (Workspace.hierarchy (apply config state root node target filesToDelete).state).document =
        (Workspace.hierarchy state).document ∨
      (Workspace.hierarchy (apply config state root node target filesToDelete).state).document =
        ((Workspace.hierarchy state).withKind node target).document := by
  -- Before the template is persisted the whole hierarchy is known, and persisting only counts.
  have hPersist (progress : Progress σ)
      (h : Workspace.hierarchy progress.state = Workspace.hierarchy state ∨
        Workspace.hierarchy progress.state = (Workspace.hierarchy state).withKind node target) :
      (Workspace.hierarchy (progress.andThen fun state =>
          .ofAnswer (Workspace.persist state root)).state).document =
          (Workspace.hierarchy state).document ∨
        (Workspace.hierarchy (progress.andThen fun state =>
          .ofAnswer (Workspace.persist state root)).state).document =
          ((Workspace.hierarchy state).withKind node target).document := by
    have hDocument := h.imp (congrArg Hierarchy.document) (congrArg Hierarchy.document)
    rcases progress.andThen_cases fun state => .ofAnswer (Workspace.persist state root) with
      hNext | hNext
    · rwa [hNext]
    · rwa [hNext, Progress.state_ofAnswer, LawfulWorkspace.document_persist]
  rw [apply]
  apply hPersist
  cases config.kindCommit with
  | beforeDeletions =>
    rcases (changeKind state node target).andThen_cases (deleteFiles · filesToDelete) with
      hNext | hNext
    · rw [hNext]
      exact hierarchy_changeKind state node target
    · rw [hNext, hierarchy_deleteFiles]
      exact hierarchy_changeKind state node target
  | afterDeletions =>
    rcases (deleteFiles state filesToDelete).andThen_cases (changeKind · node target) with
      hNext | hNext
    · rw [hNext]
      exact .inl (hierarchy_deleteFiles state filesToDelete)
    · rw [hNext, ← hierarchy_deleteFiles state filesToDelete]
      exact hierarchy_changeKind _ node target

omit [LawfulWorkspace σ] in
theorem success_previewIn (config : Config) (state : σ) (root node : NodeId) (target : Kind) :
    (previewIn config state root node target).success = false := by
  rw [previewIn, preview, planIn]
  split <;> rfl

omit [LawfulWorkspace σ] in
theorem execute_snd (config : Config) (state : σ) (root node : NodeId) (target : Kind) :
    (execute config state root node target).2 =
      if (previewIn config state root node target).canExecute then
        (apply config state root node target
          (previewIn config state root node target).filesToDelete).state
      else state := by
  rw [execute]
  dsimp only
  split
  · split <;> rfl
  · rfl

/-- However far an execution comes, the document stays or gets the new kind, and it gets the new kind
only from an executable plan. -/
theorem document_execute (config : Config) (state : σ) (root node : NodeId) (target : Kind) :
    (Workspace.hierarchy (execute config state root node target).2).document =
        (Workspace.hierarchy state).document ∨
      (previewIn config state root node target).canExecute = true ∧
        (Workspace.hierarchy (execute config state root node target).2).document =
          ((Workspace.hierarchy state).withKind node target).document := by
  rw [execute_snd]
  split
  · rename_i hExecutable
    have hApply := document_apply config state root node target
      (previewIn config state root node target).filesToDelete
    exact hApply.imp id fun hDocument => ⟨hExecutable, hDocument⟩
  · exact .inl rfl

end Conversion

end TemplateBinding
