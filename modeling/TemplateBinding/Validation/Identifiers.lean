import TemplateBinding.Identifier
import TemplateBinding.Text.Blank
import TemplateBinding.Validation.Basic

/-!
# Names and types

Every binding that becomes a field needs a legal name that is no reserved word, and a type.  A name
has at most one issue: an empty name is not also illegal.
-/
namespace TemplateBinding
set_option autoImplicit false

/-- The type that stands in when there is no capability to take one from. -/
def Config.fallbackType? (config : Config) : Option String :=
  let fallback := Text.trim config.fallbackTypeReference
  if fallback.isEmpty then none else some fallback

/-- What is wrong with the name of a binding, and the text from which a better one is suggested. -/
def nameIssue? (config : Config) (label : String) (binding : Binding) : Option (Issue × String) :=
  if binding.name.isEmpty then some (.emptyName binding.kind label, label)
  else if Identifier.isReserved config binding.name then
    some (.reservedWord binding.name, binding.name)
  else if !Identifier.isLegal binding.name then
    some (.invalidIdentifier binding.name, binding.name)
  else none

namespace BindingTree

variable (config : Config)

def nameFindings (slot : Slot) (binding : Binding) : List Located :=
  match nameIssue? config slot.label binding with
  | none => []
  | some (issue, source) =>
    let capability := config.primaryCapability slot.capabilities
    [.ofSlot slot issue (some (Identifier.suggest config capability source))]

def typeFindings (slot : Slot) (binding : Binding) : List Located :=
  if Text.isBlank binding.typeReference then
    let capability := config.primaryCapability slot.capabilities
    [.ofSlot slot (.missingTypeReference binding.kind slot.label)
      (capability.or config.fallbackType?)]
  else []

def identifierFindingsAt (slot : Slot) : List Located :=
  match slot.binding with
  | none => []
  | some binding =>
    if binding.kind.nameable then nameFindings config slot binding ++ typeFindings config slot binding
    else []

/-- The issues with names and types, entry by entry. -/
def identifierFindings (tree : BindingTree) : List Located :=
  tree.slots.values.flatMap (identifierFindingsAt config)

end BindingTree

end TemplateBinding
