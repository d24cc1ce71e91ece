import TemplateBinding.Arena
import TemplateBinding.Artifact.Path
import TemplateBinding.Artifact.PathName
import TemplateBinding.Artifact.Stale
import TemplateBinding.BatchAnnotation
import TemplateBinding.BindingArena
import TemplateBinding.BindingTree
import TemplateBinding.Capability
import TemplateBinding.Config
import TemplateBinding.Conversion.Execution
import TemplateBinding.Conversion.Plan
import TemplateBinding.Conversion.Precondition
import TemplateBinding.Conversion.Report
import TemplateBinding.Conversion.Session
import TemplateBinding.Conversion.Stage
import TemplateBinding.Declarations
import TemplateBinding.Digest.Sha256
import TemplateBinding.Disk
import TemplateBinding.Document
import TemplateBinding.Endpoint
import TemplateBinding.Error
import TemplateBinding.Finding
import TemplateBinding.Forest
import TemplateBinding.Hierarchy
import TemplateBinding.Identifier
import TemplateBinding.Json.Basic
import TemplateBinding.Json.Decode
import TemplateBinding.Json.Printer
import TemplateBinding.Json.Reader
import TemplateBinding.Json.Token
import TemplateBinding.Kind
import TemplateBinding.Proofs.ArenaBuilding
import TemplateBinding.Proofs.ArenaLoading
import TemplateBinding.Proofs.ArenaRuns
import TemplateBinding.Proofs.Attachment
import TemplateBinding.Proofs.BatchAccounting
import TemplateBinding.Proofs.BatchAtomicity
import TemplateBinding.Proofs.BatchDescent
import TemplateBinding.Proofs.BatchRuns
import TemplateBinding.Proofs.BatchSoundness
import TemplateBinding.Proofs.ComponentDirectory
import TemplateBinding.Proofs.ComponentPurity
import TemplateBinding.Proofs.ConversionConditions
import TemplateBinding.Proofs.ConversionRuns
import TemplateBinding.Proofs.DeclarationGate
import TemplateBinding.Proofs.DeclaredFiles
import TemplateBinding.Proofs.DiskInvariant
import TemplateBinding.Proofs.DiskWalking
import TemplateBinding.Proofs.DiskWriting
import TemplateBinding.Proofs.DocumentReading
import TemplateBinding.Proofs.DocumentText
import TemplateBinding.Proofs.Duplicates
import TemplateBinding.Proofs.ErrorFree
import TemplateBinding.Proofs.ExecutionEffect
import TemplateBinding.Proofs.Forest
import TemplateBinding.Proofs.HierarchyEdit
import TemplateBinding.Proofs.Impact
import TemplateBinding.Proofs.LabelPaths
import TemplateBinding.Proofs.LeafBoundary
import TemplateBinding.Proofs.NameConflicts
import TemplateBinding.Proofs.NameIdempotence
import TemplateBinding.Proofs.NameSharing
import TemplateBinding.Proofs.NameSuggestion
import TemplateBinding.Proofs.OwnDirectories
import TemplateBinding.Proofs.PathComponents
import TemplateBinding.Proofs.PathOrder
import TemplateBinding.Proofs.Planning
import TemplateBinding.Proofs.Projection
import TemplateBinding.Proofs.Rendering
import TemplateBinding.Proofs.Reopening
import TemplateBinding.Proofs.Replacement
import TemplateBinding.Proofs.Retyping
import TemplateBinding.Proofs.ScopeMerging
import TemplateBinding.Proofs.ScopePartition
import TemplateBinding.Proofs.Scoping
import TemplateBinding.Proofs.SessionRuns
import TemplateBinding.Proofs.SharedFiles
import TemplateBinding.Proofs.StaleScan
import TemplateBinding.Proofs.StructuralFindings
import TemplateBinding.Proofs.Subtree
import TemplateBinding.Proofs.SuggestedNames
import TemplateBinding.Proofs.SuggestedTypes
import TemplateBinding.Proofs.TemplateFileRuns
import TemplateBinding.Proofs.TreeBuilding
import TemplateBinding.Proofs.Undoing
import TemplateBinding.Proofs.UnlockedFiles
import TemplateBinding.Proofs.VerbatimRendering
import TemplateBinding.Scope
import TemplateBinding.TemplateFile
import TemplateBinding.Text.Blank
import TemplateBinding.Text.Quoted
import TemplateBinding.Text.Substitution
import TemplateBinding.Text.UpperCase
import TemplateBinding.Validation
import TemplateBinding.Validation.Basic
import TemplateBinding.Validation.Identifiers
import TemplateBinding.Validation.Structure
import TemplateBinding.Workspace
