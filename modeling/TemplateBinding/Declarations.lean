import TemplateBinding.Artifact.Path
import TemplateBinding.Validation

/-!
# Declarations

What the code generator is given: a declaration for every scope, with its files and its fields.
Nothing is declared while an error is reported.
-/
namespace TemplateBinding
set_option autoImplicit false

open BindingTree (Slot)

structure FieldDeclaration where
  name : String
  kind : Kind
  typeReference : String
  comment : Option String
  /-- The labels from the template down to the node, without the template's own. -/
  path : String
  deriving Repr, DecidableEq

structure ScopeDeclaration where
  name : String
  /-- Only the scope of the template itself has none. -/
  kind : Option Kind
  typeReference : String
  primaryPath : String
  companionPath : String
  members : List FieldDeclaration
  deriving Repr, DecidableEq

structure Declarations where
  template : String
  scopes : List ScopeDeclaration
  deriving Repr, DecidableEq

def FieldDeclaration.ofSlot? (slot : Slot) : Option FieldDeclaration :=
  slot.binding.map fun binding =>
    ⟨binding.name, binding.kind, binding.typeReference, binding.comment,
      "/".intercalate (slot.path.drop 1)⟩

def ScopeDeclaration.ofPlace? (config : Config) (template : String) (place : Place Slot) :
    Option ScopeDeclaration :=
  (Artifact.ofEntry? config template place.value.toEntry).map fun paths =>
    { name := place.value.displayName
      kind := place.value.kind?
      typeReference := place.value.binding.elim template fun binding => binding.typeReference
      primaryPath := paths.primary
      companionPath := paths.companion
      members := place.members.filterMap FieldDeclaration.ofSlot? }

namespace BindingTree

def declarations (config : Config) (tree : BindingTree) : Declarations :=
  ⟨tree.templateName, tree.scopes.filterMap (ScopeDeclaration.ofPlace? config tree.templateName)⟩

def declare (config : Config) (tree : BindingTree) (findings : List Finding) :
    Except Error Declarations :=
  let errors := findings.countP Finding.isError
  if 0 < errors then .error (.blockedByErrors errors) else .ok (tree.declarations config)

end BindingTree

/-! ## JSON form -/

def FieldDeclaration.toJson (field : FieldDeclaration) : Json := .object [
  ("name", .string field.name),
  ("kind", field.kind.toJson),
  ("typeReference", .string field.typeReference),
  ("comment", Json.ofOption .string field.comment),
  ("path", .string field.path)]

def ScopeDeclaration.toJson (scope : ScopeDeclaration) : Json := .object [
  ("name", .string scope.name),
  ("kind", Json.ofOption Kind.toJson scope.kind),
  ("typeReference", .string scope.typeReference),
  ("primaryPath", .string scope.primaryPath),
  ("companionPath", .string scope.companionPath),
  ("members", .array (scope.members.map FieldDeclaration.toJson))]

def Declarations.toJson (declarations : Declarations) : Json := .object [
  ("template", .string declarations.template),
  ("scopes", .array (declarations.scopes.map ScopeDeclaration.toJson))]

end TemplateBinding
