import TemplateBinding.Artifact.Stale
import TemplateBinding.BatchAnnotation
import TemplateBinding.Conversion.Execution
import TemplateBinding.Declarations

/-!
# Endpoints

The calls of a user interface.  They take JSON values and address nodes by their label paths.  The
checks of a call are made in a fixed order, and the first that fails gives the answer: the
configuration, the other arguments, the template file, and last the nodes.
-/
namespace TemplateBinding.Endpoint
set_option autoImplicit false

inductive Failure where
  | invalidConfig
  | invalidKind
  | invalidTemplate
  | invalidOptions
  | cannotOpen (cause : Error)
  | cannotLocate (cause : Error)
  | cannotPersist (cause : Error)
  | blocked (cause : Error)
  deriving Repr, DecidableEq

namespace Failure

/-- What was being done. -/
def context : Failure → String
  | invalidConfig => "Invalid config"
  | invalidKind => "Invalid binding kind"
  | invalidTemplate => "Invalid template"
  | invalidOptions => "Invalid batch options"
  | cannotOpen _ => "Cannot open template"
  | cannotLocate _ => "Cannot locate node"
  | cannotPersist _ => "Cannot persist template"
  | blocked _ => "Codegen blocked"

/-- What went wrong, unless the argument could not be decoded. -/
def cause? : Failure → Option Error
  | invalidConfig | invalidKind | invalidTemplate | invalidOptions => none
  | cannotOpen cause | cannotLocate cause | cannotPersist cause | blocked cause => some cause

end Failure

/-- The result of a decoder that may open as many containers as the value has. -/
def decodeWith {α : Type} (decode : Nat → Json → Option α) (failure : Failure) (json : Json) :
    Except Failure α :=
  match decode json.nesting json with
  | some value => .ok value
  | none => .error failure

/-- A missing configuration is the default one. -/
def configOf (config : Option Json) : Except Failure Config :=
  config.elim (.ok {}) (decodeWith Config.decode .invalidConfig)

def kindOf (name : String) : Except Failure Kind :=
  match Kind.named? name with
  | some kind => .ok kind
  | none => .error .invalidKind

def openTemplate (disk : Disk) (path : String) : Except Failure TemplateFile :=
  (TemplateFile.openAt disk path).mapError .cannotOpen

def locate (file : TemplateFile) (path : String) : Except Failure NodeId :=
  (file.hierarchy.resolve path).mapError .cannotLocate

def treeOf (document : Document) : BindingTree := .build ⟨document, 0⟩ TemplateFile.root

structure Summary where
  hasErrors : Bool
  findings : List Finding
  staleArtifacts : List String
  deriving Repr, DecidableEq

def Summary.toJson (summary : Summary) : Json := .object [
  ("hasErrors", .bool summary.hasErrors),
  ("findings", .array (summary.findings.map Finding.toJson)),
  ("staleArtifacts", Json.strings summary.staleArtifacts)]

/-- What tells a user interface that the library is there. -/
def greeting : String := "Binding Planner Native Bridge Connected"

def validateTemplate (disk : Disk) (template : Json) (config : Option Json) :
    Except Failure Summary := do
  let config ← configOf config
  let document ← decodeWith Document.decode .invalidTemplate template
  let tree := treeOf document
  let findings := tree.findings config
  return ⟨Finding.anyError findings, findings, Artifact.stale config disk tree⟩

def suggestName (label : String) (capability : Option String) (config : Option Json) :
    Except Failure String := do
  let config ← configOf config
  return Identifier.suggest config capability label

/-- The checks that come before a conversion. -/
def prepareConversion (disk : Disk) (file path target : String) (config : Option Json) :
    Except Failure (Config × Kind × TemplateFile × NodeId) := do
  let config ← configOf config
  let target ← kindOf target
  let file ← openTemplate disk file
  let node ← locate file path
  return (config, target, file, node)

def previewConversion (disk : Disk) (file path target : String) (config : Option Json) :
    Except Failure Conversion.Report := do
  let (config, target, file, node) ← prepareConversion disk file path target config
  return Conversion.previewIn config (DiskWorkspace.mk file disk) TemplateFile.root node target

/-- The report, and the disk afterwards. -/
def executeConversion (disk : Disk) (file path target : String) (config : Option Json) :
    Except Failure Conversion.Report × Disk :=
  match prepareConversion disk file path target config with
  | .error failure => (.error failure, disk)
  | .ok (config, target, file, node) =>
    let (report, workspace) :=
      Conversion.execute config (DiskWorkspace.mk file disk) TemplateFile.root node target
    (.ok report, workspace.disk)

/-- The checks that come before a batch. -/
def prepareBatch (disk : Disk) (file : String) (paths : List String) (options : Json)
    (config : Option Json) : Except Failure (Config × Batch.Options × TemplateFile × List NodeId) := do
  let config ← configOf config
  let options ← decodeWith Batch.Options.decode .invalidOptions options
  let file ← openTemplate disk file
  let nodes ← paths.mapM (locate file)
  return (config, options, file, nodes)

/-- Persists the template after a batch if a node was annotated.  Returns the disk afterwards too. -/
def finishBatch (disk : Disk) (file : TemplateFile) (done : Batch.Outcome × Hierarchy) :
    Except Failure Batch.Outcome × Disk :=
  let (outcome, hierarchy) := done
  if outcome.annotated.isEmpty then (.ok outcome, disk)
  else
    match ({ file with hierarchy } : TemplateFile).persist disk TemplateFile.root with
    | (.error cause, _, disk) => (.error (.cannotPersist cause), disk)
    | (.ok _, _, disk) => (.ok outcome, disk)

/-- Annotates the nodes at the paths. -/
def batchAnnotate (disk : Disk) (file : String) (paths : List String) (options : Json)
    (config : Option Json) : Except Failure Batch.Outcome × Disk :=
  match prepareBatch disk file paths options config with
  | .error failure => (.error failure, disk)
  | .ok (config, options, file, nodes) =>
    finishBatch disk file (Batch.annotate config options file.hierarchy nodes)

def declareTemplate (template : Json) (config : Option Json) : Except Failure Declarations := do
  let config ← configOf config
  let document ← decodeWith Document.decode .invalidTemplate template
  let tree := treeOf document
  (tree.declare config (tree.findings config)).mapError .blocked

end TemplateBinding.Endpoint
