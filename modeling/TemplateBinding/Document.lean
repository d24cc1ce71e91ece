import TemplateBinding.Forest
import TemplateBinding.Json.Printer
import TemplateBinding.Json.Reader
import TemplateBinding.Kind

/-!
# Template documents

A template is a tree of labelled nodes.  Some of them carry a binding, which says how generated
code refers to them.  The JSON form of a node lists its children inside it.
-/
namespace TemplateBinding
set_option autoImplicit false

structure Binding where
  kind : Kind
  name : String := ""
  typeReference : String := ""
  comment : Option String := none
  deriving Repr, DecidableEq

namespace Binding

/-- A boundary has no name and no type. -/
def leaf : Binding := ⟨.leaf, "", "", none⟩

def effectiveName (binding : Binding) : Option String :=
  if binding.kind.nameable then some binding.name else none

def toJson (binding : Binding) : Json := .object [
  ("kind", binding.kind.toJson),
  ("name", .string binding.name),
  ("typeReference", .string binding.typeReference),
  ("comment", Json.ofOption .string binding.comment)]

def decode (limit : Nat) (json : Json) : Option Binding := do
  let (fields, limit) ← Json.record? ["kind", "name", "typeReference", "comment"] limit json
  let kind ← fields.required "kind" (Kind.decode limit)
  let name ← fields.withDefault "name" "" Json.string?
  let typeReference ← fields.withDefault "typeReference" "" Json.string?
  let comment ← fields.withDefault "comment" none (Json.nullable Json.string?)
  return ⟨kind, name, typeReference, comment⟩

end Binding

structure Record where
  label : String
  capabilities : List String := []
  binding : Option Binding := none
  readOnly : Bool := false
  deriving Repr, DecidableEq

abbrev Document := Tree Record

/-- A node is addressed by its pre-order position in the document, the root being node zero. -/
abbrev NodeId := Nat

namespace NodeId

def text (node : NodeId) : String := "#" ++ toString node

def toJson (node : NodeId) : Json := .int node

/-- Addresses are 32-bit numbers. -/
def decode (json : Json) : Option NodeId := json.natBelow? 0x100000000

end NodeId

namespace Document

def nodeToJson (record : Record) (children : List Json) : Json := .object [
  ("label", .string record.label),
  ("capabilities", Json.strings record.capabilities),
  ("annotation", Json.ofOption Binding.toJson record.binding),
  ("readOnly", .bool record.readOnly),
  ("children", .array children)]

def forestToJson : Forest Record → List Json
  | .nil => []
  | .cons record below rest => nodeToJson record (forestToJson below) :: forestToJson rest

def toJson (document : Document) : Json :=
  nodeToJson document.root (forestToJson document.children)

/-- Decodes a node, given how its children are decoded and how many containers may be opened for its
other fields. -/
def decodeNode (decodeChildren : Json → Option (List Document)) (limit : Nat) (json : Json) :
    Option Document := do
  let fields ← Json.Fields.of? ["label", "capabilities", "annotation", "readOnly", "children"] json
  let label ← fields.required "label" Json.string?
  let capabilities ← fields.withDefault "capabilities" [] (Json.strings? limit)
  let binding ← fields.withDefault "annotation" none (Json.nullable (Binding.decode limit))
  let readOnly ← fields.withDefault "readOnly" false Json.bool?
  let children ← fields.withDefault "children" [] decodeChildren
  return ⟨⟨label, capabilities, binding, readOnly⟩, .ofTrees children⟩

/-- A node opens one container for itself and one for the list of its children. -/
def decode : Nat → Json → Option Document
  | 0, _ => none
  | 1, json => decodeNode (fun _ => none) 0 json
  | limit + 2, json => decodeNode (Json.items? (decode limit)) (limit + 1) json

/-- The number of containers that a text may nest. -/
def nestingLimit : Nat := 127

def print (document : Document) : String := document.toJson.pretty

def parse? (text : String) : Option Document := (Json.read? text).bind (decode nestingLimit)

end Document

end TemplateBinding
