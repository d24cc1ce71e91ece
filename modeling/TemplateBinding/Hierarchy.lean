import TemplateBinding.Error

/-!
# Hierarchies

A hierarchy is the document being edited, with a count of how often it was persisted.  Its nodes
are numbered in pre-order.  Reading an unknown node gives empty answers; writing to it fails.  No
edit moves a node, so an address stays valid.
-/
namespace TemplateBinding
set_option autoImplicit false

/-- A record with the address at which it stands. -/
structure Node extends Record where
  id : NodeId
  deriving Repr, DecidableEq

structure Hierarchy where
  document : Document
  persistCount : Nat := 0
  deriving Repr, DecidableEq

namespace Hierarchy

/-- The document with every record numbered. -/
def nodes (hierarchy : Hierarchy) : Tree Node :=
  hierarchy.document.mapPositions fun id record => { record with id }

/-- All nodes in the order of their addresses, each with its surroundings. -/
def places (hierarchy : Hierarchy) : List (Place Node) := hierarchy.nodes.places

def place? (hierarchy : Hierarchy) (node : NodeId) : Option (Place Node) := hierarchy.places[node]?

/-- The labels from the top of the document down to a place. -/
def labels (place : Place Node) : List String :=
  (place.value :: place.above).reverse.map fun node => node.label

/-! ## Reading -/

def label (hierarchy : Hierarchy) (node : NodeId) : String :=
  (hierarchy.place? node).elim "" fun place => place.value.label

def capabilities (hierarchy : Hierarchy) (node : NodeId) : List String :=
  (hierarchy.place? node).elim [] fun place => place.value.capabilities

def binding (hierarchy : Hierarchy) (node : NodeId) : Option Binding :=
  (hierarchy.place? node).bind fun place => place.value.binding

def parent (hierarchy : Hierarchy) (node : NodeId) : Option NodeId :=
  (hierarchy.place? node).bind fun place => place.above.head?.map fun above => above.id

def children (hierarchy : Hierarchy) (node : NodeId) : List NodeId :=
  (hierarchy.place? node).elim [] fun place => place.below.roots.map fun child => child.id

def pathOf (hierarchy : Hierarchy) (node : NodeId) : String :=
  (hierarchy.place? node).elim "" fun place => "/".intercalate (labels place)

/-- The nodes at a path, which are several when siblings share a label. -/
def nodesAt (hierarchy : Hierarchy) (path : String) : List NodeId :=
  (hierarchy.places.filter fun place => "/".intercalate (labels place) == path).map
    fun place => place.value.id

def find? (hierarchy : Hierarchy) (path : String) : Option NodeId :=
  (hierarchy.nodesAt path).head?

def resolve (hierarchy : Hierarchy) (path : String) : Except Error NodeId :=
  match hierarchy.nodesAt path with
  | [node] => .ok node
  | [] => .error (.noSuchPath path)
  | nodes => .error (.ambiguousPath path nodes.length)

def documentAt? (hierarchy : Hierarchy) (node : NodeId) : Option Document :=
  (hierarchy.place? node).map fun place => (Tree.ofPlace place).map fun node => node.toRecord

/-! ## Writing -/

def modify (hierarchy : Hierarchy) (node : NodeId) (edit : Record → Record) : Hierarchy :=
  { hierarchy with document := hierarchy.document.modify edit node }

/-- The record of a node that may be edited. -/
def writable (hierarchy : Hierarchy) (node : NodeId) : Except Error Record :=
  match hierarchy.place? node with
  | none => .error (.unknownNode node)
  | some place => if place.value.readOnly then .error (.readOnly node) else .ok place.value.toRecord

def setKind (hierarchy : Hierarchy) (node : NodeId) (kind : Kind) : Except Error Hierarchy :=
  match hierarchy.writable node with
  | .error error => .error error
  | .ok record =>
    match record.binding with
    | none => .error (.notAnnotated node)
    | some binding =>
      .ok (hierarchy.modify node fun record => { record with binding := some { binding with kind } })

def setBinding (hierarchy : Hierarchy) (node : NodeId) (binding : Binding) :
    Except Error Hierarchy :=
  match hierarchy.writable node with
  | .error error => .error error
  | .ok _ => .ok (hierarchy.modify node fun record => { record with binding := some binding })

def setReadOnly (hierarchy : Hierarchy) (node : NodeId) (readOnly : Bool) :
    Except Error Hierarchy :=
  match hierarchy.place? node with
  | none => .error (.unknownNode node)
  | some _ => .ok (hierarchy.modify node fun record => { record with readOnly })

/-- Counts that the part below a known node was persisted. -/
def persist (hierarchy : Hierarchy) (node : NodeId) : Except Error Hierarchy :=
  match hierarchy.place? node with
  | none => .error (.unknownNode node)
  | some _ => .ok { hierarchy with persistCount := hierarchy.persistCount + 1 }

end Hierarchy

end TemplateBinding
