import TemplateBinding.Hierarchy
import TemplateBinding.Validation.Identifiers

/-!
# Batch annotation

Gives bindings to many nodes at once.  A node that has a binding is skipped, a node that cannot get
one is recorded as failed, and the others go on.
-/
namespace TemplateBinding
set_option autoImplicit false

namespace Batch

structure Options where
  /-- The nodes below a selected node are selected too. -/
  recursive : Bool
  /-- Without a kind, each node's capabilities decide. -/
  defaultKind : Option Kind
  autoSuggestName : Bool
  deriving Repr, DecidableEq

def Options.decode (limit : Nat) (json : Json) : Option Options := do
  let names := ["recursive", "defaultKind", "autoSuggestName"]
  let (fields, limit) ← Json.record? names limit json
  let recursive ← fields.required "recursive" Json.bool?
  let defaultKind ← fields.optional "defaultKind" (Kind.decode limit)
  let autoSuggestName ← fields.required "autoSuggestName" Json.bool?
  return ⟨recursive, defaultKind, autoSuggestName⟩

/-- One visit to a node.  The detail is the assigned name, or the reason why there is none. -/
structure Item where
  node : NodeId
  path : String
  detail : String
  deriving Repr, DecidableEq

structure Outcome where
  annotated : List Item := []
  skipped : List Item := []
  failed : List Item := []
  deriving Repr, DecidableEq

inductive Verdict where
  | annotated
  | skipped
  | failed
  deriving Repr, DecidableEq

namespace Outcome

def total (outcome : Outcome) : Nat :=
  outcome.annotated.length + outcome.skipped.length + outcome.failed.length

def record (outcome : Outcome) (verdict : Verdict) (item : Item) : Outcome :=
  match verdict with
  | .annotated => { outcome with annotated := outcome.annotated ++ [item] }
  | .skipped => { outcome with skipped := outcome.skipped ++ [item] }
  | .failed => { outcome with failed := outcome.failed ++ [item] }

end Outcome

/-- The type given to a node with the capabilities: the primary one unless it is blank, and the
configured fallback otherwise. -/
def typeFor? (config : Config) (capabilities : List String) : Option String :=
  ((config.primaryCapability capabilities).filter fun capability => !Text.isBlank capability).or
    config.fallbackType?

/-- The binding that a record gets, if there is a type for it. -/
def bindingFor? (config : Config) (options : Options) (label : String) (capabilities : List String) :
    Option Binding :=
  let kind := options.defaultKind.getD (config.inferKind capabilities)
  if kind.nameable then
    (typeFor? config capabilities).map fun typeReference =>
      let capability := config.primaryCapability capabilities
      let name := if options.autoSuggestName then Identifier.suggest config capability label else label
      { kind, name, typeReference }
  else some .leaf

/-- Visits one node: the verdict, its detail, and the hierarchy afterwards. -/
def visit (config : Config) (options : Options) (hierarchy : Hierarchy) (node : NodeId) :
    Verdict × String × Hierarchy :=
  match hierarchy.binding node with
  | some existing => (.skipped, "already annotated as " ++ existing.kind.name, hierarchy)
  | none =>
    let label := hierarchy.label node
    match bindingFor? config options label (hierarchy.capabilities node) with
    | none =>
        (.failed, "'" ++ label ++ "' has no capability to use as type reference", hierarchy)
    | some binding =>
      match hierarchy.setBinding node binding with
      | .ok hierarchy => (.annotated, binding.name, hierarchy)
      | .error error => (.failed, error.message, hierarchy)

/-- The nodes visited for a selected node: itself, or all nodes from it downwards. -/
def selection (options : Options) (hierarchy : Hierarchy) (node : NodeId) : List NodeId :=
  match options.recursive, hierarchy.place? node with
  | true, some place => (Tree.ofPlace place).values.map fun node => node.id
  | _, _ => [node]

def visitAll (config : Config) (options : Options) :
    List NodeId → Outcome × Hierarchy → Outcome × Hierarchy
  | [], done => done
  | node :: nodes, (outcome, hierarchy) =>
    let (verdict, detail, after) := visit config options hierarchy node
    visitAll config options nodes
      (outcome.record verdict ⟨node, hierarchy.pathOf node, detail⟩, after)

def annotate (config : Config) (options : Options) (hierarchy : Hierarchy) (nodes : List NodeId) :
    Outcome × Hierarchy :=
  visitAll config options (nodes.flatMap (selection options hierarchy)) ({}, hierarchy)

/-! ## JSON form -/

def Item.toJson (item : Item) : Json := .object [
  ("node", item.node.toJson), ("path", .string item.path), ("detail", .string item.detail)]

def Outcome.toJson (outcome : Outcome) : Json := .object [
  ("annotated", .array (outcome.annotated.map Item.toJson)),
  ("skipped", .array (outcome.skipped.map Item.toJson)),
  ("failed", .array (outcome.failed.map Item.toJson))]

end Batch

end TemplateBinding
