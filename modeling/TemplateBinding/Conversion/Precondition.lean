import TemplateBinding.Conversion.Report
import TemplateBinding.Validation

/-!
# When a binding may change its kind

The binding keeps its name, so the name has to be sound; and the tree with the new kind must have no
structural finding about a node that had none before.
-/
namespace TemplateBinding.Conversion
set_option autoImplicit false

open BindingTree (Slot)

inductive Refusal where
  | notInTemplate (node : NodeId)
  | sameKind (label : String) (target : Kind)
  | fixedSource (source : Kind)
  | fixedTarget (target : Kind)
  | unnamed (label : String)
  | reservedName (name : String)
  | illegalName (name : String)
  | introduces (target : Kind) (message : String)
  deriving Repr, DecidableEq

namespace Refusal

def message : Refusal → String
  | notInTemplate node => "Node " ++ node.text ++ " is not an annotated node of this template."
  | sameKind label target => "'" ++ label ++ "' is already a " ++ target.name ++ " (same type)."
  | fixedSource source => source.name ++ " bindings cannot be converted."
  | fixedTarget target => "Cannot convert to " ++ target.name ++ "."
  | unnamed label => "'" ++ label ++ "' has no binding name."
  | reservedName name => (Issue.reservedWord name).message
  | illegalName name => (Issue.invalidIdentifier name).message
  | introduces target message =>
      "Converting to " ++ target.name ++ " is not allowed: " ++ message

end Refusal

/-- The first finding afterwards about a node without a finding before. -/
def introduced? (before after : List Located) : Option Located :=
  after.find? fun finding => !before.any fun earlier => earlier.target == finding.target

/-- The first structural finding that a change of the tree introduces: about components first, then
about names. -/
def newIssue? (before after : BindingTree) : Option Located :=
  (introduced? before.hierarchyFindings after.hierarchyFindings).or
    (introduced? before.conflictFindings after.conflictFindings)

def refusal? (config : Config) (tree : BindingTree) (slot : Slot) (binding : Binding)
    (target : Kind) : Option Refusal :=
  if binding.kind = target then some (.sameKind slot.label target)
  else if !binding.kind.convertible then some (.fixedSource binding.kind)
  else if !target.convertible then some (.fixedTarget target)
  else if binding.name.isEmpty then some (.unnamed slot.label)
  else if Identifier.isReserved config binding.name then some (.reservedName binding.name)
  else if !Identifier.isLegal binding.name then some (.illegalName binding.name)
  else (newIssue? tree (tree.withKind slot.index target)).map fun finding =>
    .introduces target finding.issue.message

/-- A conversion that may be planned: the place of the node and its binding. -/
structure Candidate where
  place : Place Slot
  binding : Binding

/-- A refused conversion: the current kind, if the node has one, and the reason. -/
structure Rejection where
  source : Option Kind
  refusal : Refusal
  deriving Repr, DecidableEq

def check (config : Config) (tree : BindingTree) (node : NodeId) (target : Kind) :
    Except Rejection Candidate :=
  match tree.find? node with
  | none => .error ⟨none, .notInTemplate node⟩
  | some place =>
    match place.value.binding with
    | none => .error ⟨none, .notInTemplate node⟩
    | some binding =>
      match refusal? config tree place.value binding target with
      | some refusal => .error ⟨some binding.kind, refusal⟩
      | none => .ok ⟨place, binding⟩

def objection? (config : Config) (tree : BindingTree) (node : NodeId) (target : Kind) :
    Option String :=
  match check config tree node target with
  | .ok _ => none
  | .error rejection => some rejection.refusal.message

end TemplateBinding.Conversion
