import TemplateBinding.BindingTree

/-!
# Binding trees in a row

The entries of a binding tree in a row, the one for the template first.  An entry is known by its
index and holds the indices of the entries above and below it.  The row is filled on one walk down a
hierarchy: an entry is appended before anything below it, and the entry above learns of it at once.
All steps of the walk share one stack of labels, which leads down to the node they are at.
-/
namespace TemplateBinding
set_option autoImplicit false

structure BindingCell where
  node : NodeId
  label : String
  /-- Only the entry for the template itself has none. -/
  binding : Option Binding
  capabilities : List String
  parent : Option Nat
  children : List Nat := []
  depth : Nat
  /-- The labels from the template down to the node. -/
  path : List String
  findings : List Finding := []
  deriving Repr, DecidableEq

structure BindingArena where
  cells : List BindingCell
  /-- The annotated nodes below leaves, each with the index of its leaf. -/
  shadowed : List (Nat × Hidden) := []
  deriving Repr, DecidableEq

namespace BindingArena

def cell? (arena : BindingArena) (index : Nat) : Option BindingCell := arena.cells[index]?

def parent (arena : BindingArena) (index : Nat) : Option Nat :=
  (arena.cell? index).bind BindingCell.parent

def depth (arena : BindingArena) (index : Nat) : Nat :=
  (arena.cell? index).elim 0 BindingCell.depth

/-! ## Building -/

/-- Where a walk down a hierarchy stands: what it has built, and its stack of labels. -/
structure Walk where
  arena : BindingArena
  path : List String
  deriving Repr, DecidableEq

namespace Walk

def enter (walk : Walk) (label : String) : Walk := { walk with path := walk.path ++ [label] }

def leave (walk : Walk) : Walk := { walk with path := walk.path.dropLast }

/-- The index of the next entry. -/
def next (walk : Walk) : Nat := walk.arena.cells.length

/-- Appends an entry for the node that the stack leads to, and enters it with the entry above. -/
def attach (walk : Walk) (node : Node) (binding : Binding) (parent : Nat) : Walk :=
  let cell : BindingCell :=
    { node := node.id, label := node.label, binding := some binding,
      capabilities := node.capabilities, parent := some parent,
      depth := walk.arena.depth parent + 1, path := walk.path }
  let cells := (walk.arena.cells ++ [cell]).modify parent fun above =>
    { above with children := above.children ++ [walk.next] }
  { walk with arena := { walk.arena with cells } }

/-- Records that the node the stack leads to is hidden by a leaf. -/
def hide (walk : Walk) (boundary : Nat) (node : Node) : Walk :=
  let shadowed := walk.arena.shadowed ++ [(boundary, ⟨node.id, walk.path⟩)]
  { walk with arena := { walk.arena with shadowed } }

/-- Goes through the nodes below a leaf. -/
def collect (boundary : Nat) : Forest Node → Walk → Walk
  | .nil, walk => walk
  | .cons node below rest, walk =>
    let entered := walk.enter node.label
    let noted := if node.binding.isSome then entered.hide boundary node else entered
    collect boundary rest (collect boundary below noted).leave

/-- Goes through the nodes below a node, and hangs the annotated ones under the entry with the
index. -/
def descend (parent : Nat) : Forest Node → Walk → Walk
  | .nil, walk => walk
  | .cons node below rest, walk =>
    let entered := walk.enter node.label
    let walked := match node.binding with
      | none => descend parent below entered
      | some binding =>
        let attached := entered.attach node binding parent
        if binding.kind = Kind.leaf then collect entered.next below attached
        else descend entered.next below attached
    descend parent rest walked.leave

end Walk

/-- The index of the entry for the template itself. -/
def top : Nat := 0

/-- The walk at the top of a template, with nothing but the entry for the template. -/
def start (hierarchy : Hierarchy) (root : NodeId) : Walk :=
  let path := [hierarchy.label root]
  let cell : BindingCell :=
    { node := root, label := hierarchy.label root, binding := none,
      capabilities := hierarchy.capabilities root, parent := none, depth := 0, path }
  ⟨⟨[cell], []⟩, path⟩

def build (hierarchy : Hierarchy) (root : NodeId) : BindingArena :=
  let walk := start hierarchy root
  match hierarchy.place? root with
  | none => walk.arena
  | some place =>
    match place.value.binding with
    | none => (walk.descend top place.below).arena
    | some binding =>
      ((walk.attach place.value binding top).descend walk.next place.below).arena

/-! ## Reading and editing -/

/-- The first entry for a node after the one for the template. -/
def find? (arena : BindingArena) (node : NodeId) : Option Nat :=
  ((List.range arena.cells.length).drop 1).find? fun index =>
    (arena.cell? index).any fun cell => cell.node == node

/-- An entry stands after the one it hangs under, so the way up comes to an end. -/
def Ordered (arena : BindingArena) : Prop :=
  ∀ index above, arena.parent index = some above → above < index

/-- The entries above an entry, nearest first. -/
def ancestors (arena : BindingArena) (ordered : arena.Ordered) (index : Nat) : List Nat :=
  match _h : arena.parent index with
  | none => []
  | some above => above :: arena.ancestors ordered above
termination_by index
decreasing_by exact ordered index above _h

theorem ancestors_eq (arena : BindingArena) (ordered : arena.Ordered) (index : Nat) :
    arena.ancestors ordered index =
      (arena.parent index).elim [] fun above => above :: arena.ancestors ordered above := by
  rw [ancestors]
  split
  · rename_i hParent
    rw [hParent, Option.elim_none]
  · rename_i above hParent
    rw [hParent, Option.elim_some]

def withKind (arena : BindingArena) (index : Nat) (kind : Kind) : BindingArena :=
  let cells := arena.cells.modify index fun cell =>
    { cell with binding := cell.binding.map fun binding => { binding with kind } }
  { arena with cells }

end BindingArena

end TemplateBinding
