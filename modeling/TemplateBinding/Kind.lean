import TemplateBinding.Json.Decode

/-!
# Binding kinds

How generated code refers to an annotated node of a template.
-/
namespace TemplateBinding
set_option autoImplicit false

inductive Kind where
  /-- A field of the type generated for the nearest enclosing scope. -/
  | member
  /-- A part of one template with a generated type of its own. -/
  | element
  /-- A generated type that several templates may embed. -/
  | component
  /-- A boundary: nothing at or below it is generated. -/
  | leaf
  deriving Repr, DecidableEq

namespace Kind

def all : List Kind := [member, element, component, leaf]

/-- The kind has a generated type of its own, in which the names below it live. -/
def opensScope : Kind → Bool
  | member | leaf => false
  | element | component => true

def nameable (kind : Kind) : Bool := kind != leaf

/-- Every kind with a generated type owns the files of that type. -/
def requiresArtifact (kind : Kind) : Bool := kind.opensScope

def convertible (kind : Kind) : Bool := kind != leaf

def name : Kind → String
  | member => "Member"
  | element => "Element"
  | component => "Component"
  | leaf => "Leaf"

def named? (name : String) : Option Kind := all.find? fun kind => kind.name == name

@[simp] theorem named?_name (kind : Kind) : named? kind.name = some kind := by
  cases kind <;> decide +kernel

def toJson (kind : Kind) : Json := .string kind.name

def decode : Nat → Json → Option Kind := Json.choice named?

end Kind

end TemplateBinding
