import TemplateBinding.Artifact.Path
import TemplateBinding.Conversion.Precondition

/-!
# Planning a conversion

A conversion deletes the files that the old kind owns and has, and creates those of the new kind.  A
file to be created must not exist already, unless it is one of those to be deleted.  The scope around
the node changes, so its companion file is modified.
-/
namespace TemplateBinding.Conversion
set_option autoImplicit false

def ownPaths (config : Config) (template : String) (kind : Kind) (name : String) : List String :=
  (Artifact.ofKind? config template kind name).elim [] ArtifactPair.both

/-- The report on an allowed conversion, given which files exist. -/
def plan (config : Config) (tree : BindingTree) (fileExists : String → Bool)
    (candidate : Candidate) (target : Kind) : Report :=
  let binding := candidate.binding
  let template := tree.templateName
  let filesToDelete := (ownPaths config template binding.kind binding.name).filter fileExists
  let filesToCreate := ownPaths config template target binding.name
  let conflictPath :=
    filesToCreate.find? fun path => fileExists path && !filesToDelete.contains path
  let modified := tree.artifacts? config candidate.place.scope
  Report.sealed {
    sourceKind := some binding.kind, targetKind := target, filesToCreate, filesToDelete,
    filesToModify := modified.elim [] fun paths => [paths.companion],
    hasNameConflict := conflictPath.isSome, conflictPath }

def planIn (config : Config) (tree : BindingTree) (fileExists : String → Bool) (node : NodeId)
    (target : Kind) : Report :=
  match check config tree node target with
  | .error rejection =>
      (Report.rejected rejection.source target rejection.refusal.message).sealed
  | .ok candidate => plan config tree fileExists candidate target

def preview (config : Config) (hierarchy : Hierarchy) (fileExists : String → Bool) (root : NodeId)
    (node : NodeId) (target : Kind) : Report :=
  planIn config (.build hierarchy root) fileExists node target

end TemplateBinding.Conversion
