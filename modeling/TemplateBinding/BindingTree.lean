import TemplateBinding.Finding
import TemplateBinding.Hierarchy

/-!
# Binding trees

A binding tree keeps what matters for generation: an entry for the template itself at the top, and
below it an entry for every annotated node, hung under the nearest annotated node above it.  Nothing
hangs below a leaf; the annotated nodes hidden there are recorded with the leaf.
-/
namespace TemplateBinding
set_option autoImplicit false

structure Hidden where
  node : NodeId
  path : List String
  deriving Repr, DecidableEq

structure Entry where
  node : NodeId
  label : String
  /-- Only the entry for the template itself has none. -/
  binding : Option Binding
  capabilities : List String
  /-- The labels from the template down to the node. -/
  path : List String
  /-- The annotated nodes below a leaf, in pre-order. -/
  hidden : List Hidden := []
  findings : List Finding := []
  deriving Repr, DecidableEq

namespace Entry

def kind? (entry : Entry) : Option Kind := entry.binding.map fun binding => binding.kind

/-- The name under which a scope sees the entry. -/
def name? (entry : Entry) : Option String :=
  entry.binding.bind fun binding => binding.effectiveName

def pathText (entry : Entry) : String := "/".intercalate entry.path

/-- What the entry is called in messages: its name if it has one, and its label otherwise. -/
def displayName (entry : Entry) : String :=
  match entry.name? with
  | some name => if name.isEmpty then entry.label else name
  | none => entry.label

/-- The entry is the template itself or opens a scope of its own. -/
def isScope (entry : Entry) : Bool := entry.kind?.all Kind.opensScope

def withKind (kind : Kind) (entry : Entry) : Entry :=
  { entry with binding := entry.binding.map fun binding => { binding with kind } }

end Entry

abbrev BindingTree := Tree Entry

namespace BindingTree

/-! ## Building -/

/-- The annotated nodes of a forest below the given labels, in pre-order. -/
def hiddenIn (path : List String) : Forest Node → List Hidden
  | .nil => []
  | .cons node below rest =>
      let here := path ++ [node.label]
      (if node.binding.isSome then [⟨node.id, here⟩] else []) ++ hiddenIn here below ++
        hiddenIn path rest

def entryOf (path : List String) (node : Node) (binding : Binding) : Entry :=
  { node := node.id, label := node.label, binding := some binding,
    capabilities := node.capabilities, path := path }

/-- Keeps the annotated nodes of a forest below the given labels, and drops what lies below a
leaf. -/
def contract (path : List String) : Forest Node → Forest Entry
  | .nil => .nil
  | .cons node below rest =>
      let here := path ++ [node.label]
      match node.binding with
      | none => contract here below ++ contract path rest
      | some binding =>
        if binding.kind = .leaf then
          .cons { entryOf here node binding with hidden := hiddenIn here below } .nil
            (contract path rest)
        else .cons (entryOf here node binding) (contract here below) (contract path rest)

/-- The tree for the part of a template at one place.  When its top node is annotated, that node
has an entry of its own below the template's. -/
def ofPlace (place : Place Node) : BindingTree :=
  let top := place.value
  let path := [top.label]
  let below := contract path place.below
  { root :=
      { node := top.id, label := top.label, binding := none, capabilities := top.capabilities,
        path := path }
    children := match top.binding with
      | none => below
      | some binding => .cons (entryOf path top binding) below .nil }

def ofUnknown (root : NodeId) : BindingTree :=
  { root := { node := root, label := "", binding := none, capabilities := [], path := [""] }
    children := .nil }

/-- The tree for the part of a hierarchy at and below a root. -/
def build (hierarchy : Hierarchy) (root : NodeId) : BindingTree :=
  match hierarchy.place? root with
  | none => ofUnknown root
  | some place => ofPlace place

/-! ## Positions -/

/-- An entry with its pre-order position in the tree. -/
structure Slot extends Entry where
  index : Nat
  deriving Repr, DecidableEq

def slots (tree : BindingTree) : Tree Slot :=
  tree.mapPositions fun index entry => { entry with index }

def places (tree : BindingTree) : List (Place Slot) := tree.slots.places

def templateName (tree : BindingTree) : String := tree.root.label

/-- The entry of an annotated node, never the one of the template itself. -/
def find? (tree : BindingTree) (node : NodeId) : Option (Place Slot) :=
  tree.places.find? fun place => place.value.binding.isSome && place.value.node == node

/-- All hidden nodes with the index of the leaf that hides them, in the order of the leaves. -/
def shadowed (tree : BindingTree) : List (Nat × Hidden) :=
  tree.slots.values.flatMap fun slot => slot.hidden.map fun hidden => (slot.index, hidden)

def withKind (tree : BindingTree) (index : Nat) (kind : Kind) : BindingTree :=
  tree.modify (Entry.withKind kind) index

end BindingTree

namespace Place

/-- The index of the entry above, which only the entry for the template lacks. -/
def parent? (place : Place BindingTree.Slot) : Option Nat :=
  place.above.head?.map fun slot => slot.index

/-- The indices of the entries directly below. -/
def children (place : Place BindingTree.Slot) : List Nat :=
  place.below.roots.map fun slot => slot.index

/-- The indices of the entries above, nearest first. -/
def ancestors (place : Place BindingTree.Slot) : List Nat :=
  place.above.map fun slot => slot.index

def depth (place : Place BindingTree.Slot) : Nat := place.above.length

end Place

end TemplateBinding
