import TemplateBinding.Hierarchy

/-!
# Arenas

The nodes of a document in a row.  A node is addressed by its index, which has 32 bits, and knows the
addresses of its parent and of its children.  A document is loaded by appending each node before the
nodes below it; a child is entered with its parent once everything below the child is there.
-/
namespace TemplateBinding
set_option autoImplicit false

structure Cell extends Record where
  parent : Option NodeId
  children : List NodeId := []
  deriving Repr, DecidableEq

structure Arena where
  cells : List Cell := []
  persistCount : Nat := 0
  deriving Repr, DecidableEq

namespace Arena

/-- The number of addresses. -/
def capacity : Nat := UInt32.size

/-! ## Loading -/

def nextAddress (arena : Arena) : NodeId := arena.cells.length % capacity

def push (arena : Arena) (record : Record) (parent : Option NodeId) : Arena :=
  { arena with cells := arena.cells ++ [{ record with parent }] }

def adopt (arena : Arena) (parent child : NodeId) : Arena :=
  let cells := arena.cells.modify parent fun cell =>
    { cell with children := cell.children ++ [child] }
  { arena with cells }

/-- Appends a forest below a node that is there already. -/
def insertBelow (arena : Arena) (parent : NodeId) : Forest Record → Arena
  | .nil => arena
  | .cons record below rest =>
    let address := arena.nextAddress
    let complete := (arena.push record (some parent)).insertBelow address below
    (complete.adopt parent address).insertBelow parent rest

def load (document : Document) : Arena :=
  let empty : Arena := {}
  (empty.push document.root none).insertBelow empty.nextAddress document.children

/-! ## Reading -/

def cell? (arena : Arena) (node : NodeId) : Option Cell := arena.cells[node]?

def label (arena : Arena) (node : NodeId) : String :=
  (arena.cell? node).elim "" fun cell => cell.label

def parent (arena : Arena) (node : NodeId) : Option NodeId :=
  (arena.cell? node).bind Cell.parent

def children (arena : Arena) (node : NodeId) : List NodeId :=
  (arena.cell? node).elim [] Cell.children

/-- Parents stand before their children, so no way up or down the arena comes back. -/
structure Ordered (arena : Arena) : Prop where
  parent : ∀ node above, arena.parent node = some above → above < node
  children : ∀ node, ∀ child ∈ arena.children node, node < child

/-- The labels from a node up to the top. -/
def labelsUp (arena : Arena) (ordered : arena.Ordered) (node : NodeId) : List String :=
  arena.label node ::
    match _h : arena.parent node with
    | none => []
    | some above => arena.labelsUp ordered above
termination_by node
decreasing_by exact ordered.parent node above _h

theorem labelsUp_eq (arena : Arena) (ordered : arena.Ordered) (node : NodeId) :
    arena.labelsUp ordered node =
      arena.label node :: (arena.parent node).elim [] (arena.labelsUp ordered) := by
  rw [labelsUp]
  split
  · rename_i hParent
    rw [hParent, Option.elim_none]
  · rename_i above hParent
    rw [hParent, Option.elim_some]

def pathOf (arena : Arena) (ordered : arena.Ordered) (node : NodeId) : String :=
  "/".intercalate (arena.labelsUp ordered node).reverse

/-- The part of the document at a node.  A child that is not there is left out. -/
def documentAt? (arena : Arena) (ordered : arena.Ordered) (node : NodeId) : Option Document :=
  match _h : arena.cell? node with
  | none => none
  | some cell =>
    let below := cell.children.attach.filterMap fun child => arena.documentAt? ordered child.1
    some ⟨cell.toRecord, .ofTrees below⟩
termination_by arena.cells.length - node
decreasing_by
  have hNode : node < arena.cells.length := (List.getElem?_eq_some_iff.mp _h).1
  have hChild : child.1 ∈ arena.children node := by
    rw [Arena.children, _h]
    exact child.2
  exact Nat.sub_lt_sub_left hNode (ordered.children node child.1 hChild)

theorem documentAt?_eq (arena : Arena) (ordered : arena.Ordered) (node : NodeId) :
    arena.documentAt? ordered node = (arena.cell? node).map fun cell =>
      ⟨cell.toRecord, .ofTrees (cell.children.filterMap (arena.documentAt? ordered))⟩ := by
  rw [documentAt?]
  split
  · rename_i hCell
    rw [hCell, Option.map_none]
  · rename_i cell hCell
    rw [hCell, Option.map_some, List.filterMap_subtype fun _ _ => rfl, List.unattach_attach]

/-! ## Writing -/

def edit (arena : Arena) (node : NodeId) (change : Record → Record) : Arena :=
  let cells := arena.cells.modify node fun cell => { cell with toRecord := change cell.toRecord }
  { arena with cells }

/-- The cell of a node that may be edited. -/
def writable (arena : Arena) (node : NodeId) : Except Error Cell :=
  match arena.cell? node with
  | none => .error (.unknownNode node)
  | some cell => if cell.readOnly then .error (.readOnly node) else .ok cell

def setKind (arena : Arena) (node : NodeId) (kind : Kind) : Except Error Unit × Arena :=
  match arena.writable node with
  | .error error => (.error error, arena)
  | .ok cell =>
    match cell.binding with
    | none => (.error (.notAnnotated node), arena)
    | some binding =>
      (.ok (), arena.edit node fun record => { record with binding := some { binding with kind } })

def setBinding (arena : Arena) (node : NodeId) (binding : Binding) : Except Error Unit × Arena :=
  match arena.writable node with
  | .error error => (.error error, arena)
  | .ok _ => (.ok (), arena.edit node fun record => { record with binding := some binding })

def setReadOnly (arena : Arena) (node : NodeId) (readOnly : Bool) : Except Error Unit × Arena :=
  match arena.cell? node with
  | none => (.error (.unknownNode node), arena)
  | some _ => (.ok (), arena.edit node fun record => { record with readOnly })

def persist (arena : Arena) (node : NodeId) : Except Error Unit × Arena :=
  match arena.cell? node with
  | none => (.error (.unknownNode node), arena)
  | some _ => (.ok (), { arena with persistCount := arena.persistCount + 1 })

end Arena

end TemplateBinding
