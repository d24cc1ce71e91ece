import TemplateBinding.TemplateFile

/-!
# Workspaces

What edits work on: a hierarchy, the artifact files, and a way to persist.  One workspace is in
memory, where a set of paths stands for the files and some of them are locked against deletion; the
other is a template file on a disk, next to its artifacts.  A path in a set may be found under its
own text only or under every spelling of it.
-/
namespace TemplateBinding
set_option autoImplicit false

class Workspace (σ : Type) where
  hierarchy : σ → Hierarchy
  withHierarchy : σ → Hierarchy → σ
  fileExists : σ → String → Bool
  deleteFile : σ → String → Except FileFault σ
  /-- Returns the workspace also when persisting fails. -/
  persist : σ → NodeId → Except Error Unit × σ

/-! ## In memory -/

/-- What makes two paths one. -/
inductive Identity where
  | text
  | components
  deriving Repr, DecidableEq

def Identity.same : Identity → String → String → Bool
  | text, first, second => first == second
  | components, first, second => PathName.same first second

namespace Identity

variable (identity : Identity) {first second : String}

@[simp] theorem same_refl (path : String) : identity.same path path = true := by
  cases identity <;> simp [same, PathName.same]

theorem same_comm (first second : String) :
    identity.same first second = identity.same second first := by
  cases identity <;> simp [same, PathName.same, Bool.beq_comm]

theorem same_congr (h : identity.same first second = true) :
    identity.same first = identity.same second := by
  funext path
  cases identity <;> simp_all [same, PathName.same]

end Identity

structure FileSet where
  paths : List String := []
  locked : List String := []
  identity : Identity := .components
  deriving Repr, DecidableEq

namespace FileSet

def same (files : FileSet) (first second : String) : Bool := files.identity.same first second

def contains (files : FileSet) (path : String) : Bool := files.paths.any (files.same path)

def add (files : FileSet) (path : String) : FileSet :=
  if files.contains path then files else { files with paths := files.paths ++ [path] }

def remove (files : FileSet) (path : String) : FileSet :=
  { files with paths := files.paths.filter fun other => !files.same path other }

def isLocked (files : FileSet) (path : String) : Bool := files.locked.any (files.same path)

def lock (files : FileSet) (path : String) : FileSet :=
  { files with locked := path :: files.locked }

def unlock (files : FileSet) (path : String) : FileSet :=
  { files with locked := files.locked.filter fun other => !files.same path other }

/-- A lock is noticed before the absence of the file. -/
def delete (files : FileSet) (path : String) : Except FileFault FileSet :=
  if files.isLocked path then .error .locked
  else if files.contains path then .ok (files.remove path)
  else .error .absent

end FileSet

structure MemoryWorkspace where
  hierarchy : Hierarchy
  files : FileSet := {}
  deriving Repr, DecidableEq

instance : Workspace MemoryWorkspace where
  hierarchy := MemoryWorkspace.hierarchy
  withHierarchy workspace hierarchy := { workspace with hierarchy }
  fileExists workspace path := workspace.files.contains path
  deleteFile workspace path :=
    (workspace.files.delete path).map fun files => { workspace with files }
  persist workspace node :=
    match workspace.hierarchy.persist node with
    | .ok hierarchy => (.ok (), { workspace with hierarchy })
    | .error error => (.error error, workspace)

/-! ## On a disk -/

structure DiskWorkspace where
  file : TemplateFile
  disk : Disk
  deriving Repr, DecidableEq

instance : Workspace DiskWorkspace where
  hierarchy workspace := workspace.file.hierarchy
  withHierarchy workspace hierarchy := { workspace with file := { workspace.file with hierarchy } }
  fileExists workspace path := workspace.disk.isFile path
  deleteFile workspace path := (workspace.disk.delete path).map fun disk => { workspace with disk }
  persist workspace node :=
    let (answer, file, disk) := workspace.file.persist workspace.disk node
    (answer, ⟨file, disk⟩)

end TemplateBinding
