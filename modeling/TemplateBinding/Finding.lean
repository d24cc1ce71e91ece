import TemplateBinding.Document

/-!
# Findings

What a check reports about a template.  An issue is a cause with its particulars; the rule it
breaks fixes the level and the guarantee that the rule protects, and its message is worded here.
-/
namespace TemplateBinding
set_option autoImplicit false

inductive Level where
  | info
  | warning
  | error
  deriving Repr, DecidableEq

namespace Level

def name : Level → String
  | info => "Info"
  | warning => "Warning"
  | error => "Error"

def named? (name : String) : Option Level :=
  [info, warning, error].find? fun level => level.name == name

end Level

inductive Rule where
  | emptyName
  | reservedWord
  | invalidIdentifier
  | missingTypeReference
  | nameConflict
  | elementUnderComponent
  | shadowedByLeaf
  deriving Repr, DecidableEq

namespace Rule

def all : List Rule := [emptyName, reservedWord, invalidIdentifier, missingTypeReference,
  nameConflict, elementUnderComponent, shadowedByLeaf]

def id : Rule → String
  | emptyName => "EMPTY_NAME"
  | reservedWord => "RESERVED_WORD"
  | invalidIdentifier => "INVALID_IDENTIFIER"
  | missingTypeReference => "MISSING_TYPE_REFERENCE"
  | nameConflict => "NAME_CONFLICT"
  | elementUnderComponent => "ELEMENT_UNDER_COMPONENT"
  | shadowedByLeaf => "SHADOWED_BY_LEAF"

/-- What holds of the generated code when the rule is kept. -/
def guarantee : Rule → String
  | emptyName => "Every generated field has a name."
  | reservedWord => "Generated field names never collide with language keywords."
  | invalidIdentifier => "Generated field names are legal identifiers."
  | missingTypeReference => "Every generated field declares the type it references."
  | nameConflict => "Names are unique within the scope that generates them."
  | elementUnderComponent =>
      "Components stay reusable: they never contain template-specific Elements."
  | shadowedByLeaf => "Annotations below a Leaf boundary do not generate anything."

def guaranteeOf (id : String) : String :=
  ((all.find? fun rule => rule.id == id).map guarantee).getD "Unknown rule."

def level : Rule → Level
  | shadowedByLeaf => .warning
  | _ => .error

end Rule

inductive Issue where
  | emptyName (kind : Kind) (label : String)
  | reservedWord (name : String)
  | invalidIdentifier (name : String)
  | missingTypeReference (kind : Kind) (label : String)
  | nameConflict (name : String) (uses : Nat) (scope : String)
  | elementUnderComponent (element component : String)
  | shadowedByLeaf (path boundary : String)
  deriving Repr, DecidableEq

namespace Issue

def rule : Issue → Rule
  | emptyName .. => .emptyName
  | reservedWord .. => .reservedWord
  | invalidIdentifier .. => .invalidIdentifier
  | missingTypeReference .. => .missingTypeReference
  | nameConflict .. => .nameConflict
  | elementUnderComponent .. => .elementUnderComponent
  | shadowedByLeaf .. => .shadowedByLeaf

def message : Issue → String
  | emptyName kind label => kind.name ++ " on '" ++ label ++ "' has no name."
  | reservedWord name => "'" ++ name ++ "' is a reserved word."
  | invalidIdentifier name => "'" ++ name ++ "' is not a valid identifier."
  | missingTypeReference kind label => kind.name ++ " '" ++ label ++ "' has no type reference."
  | nameConflict name uses scope =>
      "Name '" ++ name ++ "' is used " ++ toString uses ++ " times in scope '" ++ scope ++ "'."
  | elementUnderComponent element component =>
      "Element '" ++ element ++ "' cannot be nested inside Component '" ++ component ++ "'."
  | shadowedByLeaf path boundary =>
      "Annotation on '" ++ path ++ "' is ignored below Leaf '" ++ boundary ++ "'."

end Issue

structure Finding where
  level : Level
  message : String
  target : NodeId
  /-- The labels down to the target, joined by slashes. -/
  targetPath : String
  suggestedFix : Option String
  ruleId : String
  guarantee : String
  deriving Repr, DecidableEq

namespace Finding

def ofIssue (issue : Issue) (target : NodeId) (targetPath : String) (suggestedFix : Option String) :
    Finding :=
  ⟨issue.rule.level, issue.message, target, targetPath, suggestedFix, issue.rule.id,
    issue.rule.guarantee⟩

/-- The finding stops code generation. -/
def isError (finding : Finding) : Bool := finding.level == .error

def anyError (findings : List Finding) : Bool := findings.any isError

def toJson (finding : Finding) : Json := .object [
  ("level", .string finding.level.name),
  ("message", .string finding.message),
  ("target", finding.target.toJson),
  ("targetPath", .string finding.targetPath),
  ("suggestedFix", Json.ofOption .string finding.suggestedFix),
  ("ruleId", .string finding.ruleId),
  ("guarantee", .string finding.guarantee)]

def decode (limit : Nat) (json : Json) : Option Finding := do
  let names :=
    ["level", "message", "target", "targetPath", "suggestedFix", "ruleId", "guarantee"]
  let (fields, limit) ← Json.record? names limit json
  let level ← fields.required "level" (Json.choice Level.named? limit)
  let message ← fields.required "message" Json.string?
  let target ← fields.required "target" NodeId.decode
  let targetPath ← fields.required "targetPath" Json.string?
  let suggestedFix ← fields.optional "suggestedFix" Json.string?
  let ruleId ← fields.required "ruleId" Json.string?
  let guarantee ← fields.required "guarantee" Json.string?
  return ⟨level, message, target, targetPath, suggestedFix, ruleId, guarantee⟩

end Finding

end TemplateBinding
