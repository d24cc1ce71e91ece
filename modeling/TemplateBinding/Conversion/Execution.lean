import TemplateBinding.Conversion.Plan
import TemplateBinding.Workspace

/-!
# Executing a conversion

The plan is made again, and if it can be executed the files of the old kind are deleted, the kind is
changed and the template is persisted.  The first failure ends the execution; what was done before
it stays done, and the report tells the failure.
-/
namespace TemplateBinding.Conversion
set_option autoImplicit false

variable {σ : Type} [Workspace σ]

/-- A state after some steps, the last of which may have failed. -/
structure Progress (σ : Type) where
  state : σ
  failure : Option Error := none

/-- Goes on unless there was a failure. -/
def Progress.andThen (progress : Progress σ) (next : σ → Progress σ) : Progress σ :=
  match progress.failure with
  | none => next progress.state
  | some _ => progress

/-- One step, which leaves the state as it was when it fails. -/
def Progress.step (state : σ) : Except Error σ → Progress σ
  | .ok state => ⟨state, none⟩
  | .error error => ⟨state, some error⟩

/-- One step that says what state it leaves also when it fails. -/
def Progress.ofAnswer : Except Error Unit × σ → Progress σ
  | (.ok _, state) => ⟨state, none⟩
  | (.error error, state) => ⟨state, some error⟩

/-- Deletes files in order, up to the first that cannot be deleted. -/
def deleteFiles (state : σ) : List String → Progress σ
  | [] => ⟨state, none⟩
  | path :: paths =>
    match Workspace.deleteFile state path with
    | .error fault => ⟨state, some (.delete path fault)⟩
    | .ok state => deleteFiles state paths

def changeKind (state : σ) (node : NodeId) (target : Kind) : Progress σ :=
  .step state
    (((Workspace.hierarchy state).setKind node target).map (Workspace.withHierarchy state))

def apply (config : Config) (state : σ) (root node : NodeId) (target : Kind)
    (filesToDelete : List String) : Progress σ :=
  let changed := match config.kindCommit with
    | .beforeDeletions =>
        (changeKind state node target).andThen fun state => deleteFiles state filesToDelete
    | .afterDeletions =>
        (deleteFiles state filesToDelete).andThen fun state => changeKind state node target
  changed.andThen fun state => .ofAnswer (Workspace.persist state root)

def previewIn (config : Config) (state : σ) (root node : NodeId) (target : Kind) : Report :=
  preview config (Workspace.hierarchy state) (Workspace.fileExists state) root node target

def execute (config : Config) (state : σ) (root node : NodeId) (target : Kind) : Report × σ :=
  let report := previewIn config state root node target
  if report.canExecute then
    let progress := apply config state root node target report.filesToDelete
    match progress.failure with
    | none => ({ report with success := true }, progress.state)
    | some error =>
        ({ report with success := false, errorMessage := some error.message }, progress.state)
  else (report, state)

end TemplateBinding.Conversion
