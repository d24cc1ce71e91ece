import TemplateBinding.Config

/-!
# Capabilities

A node lists the types that its label may be bound as.  The configuration assigns name prefixes and
kinds to capabilities; upper and lower case of the ASCII letters make no difference there.
-/
namespace TemplateBinding
set_option autoImplicit false

def sameIgnoringCase (first second : List Char) : Bool :=
  first.map Char.toLower == second.map Char.toLower

namespace Config

variable {α : Type}

/-- The first entry, in the order of the keys, whose key is the capability up to case. -/
def lookup? (table : Table α) (capability : String) : Option α :=
  (table.find? fun entry => sameIgnoringCase entry.1.toList capability.toList).map (·.2)

def namePrefix? (config : Config) (capability : String) : Option String :=
  lookup? config.namePrefixes capability

def kindOf? (config : Config) (capability : String) : Option Kind :=
  lookup? config.kindByCapability capability

/-- The first capability with a name prefix, or else the first one. -/
def primaryCapability (config : Config) (capabilities : List String) : Option String :=
  (capabilities.find? fun capability => (config.namePrefix? capability).isSome).or
    capabilities.head?

/-- The kind assigned to the first capability that has one. -/
def inferKind (config : Config) (capabilities : List String) : Kind :=
  (capabilities.findSome? config.kindOf?).getD .member

end Config

end TemplateBinding
