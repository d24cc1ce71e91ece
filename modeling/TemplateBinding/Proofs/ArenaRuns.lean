import TemplateBinding.Proofs.ArenaLoading

/-!
# Writing to an arena

A write changes one cell or none.  It does to an arena what it does to the hierarchy that the arena
represents, with the same answer; so the arena represents the document through every run of writes,
and the document is the loaded one with the successful writes applied to their nodes.
-/
namespace TemplateBinding
set_option autoImplicit false

inductive Write where
  | setKind (node : NodeId) (kind : Kind)
  | setBinding (node : NodeId) (binding : Binding)
  | setReadOnly (node : NodeId) (readOnly : Bool)
  | persist (node : NodeId)
  deriving Repr, DecidableEq

namespace Write

def node : Write → NodeId
  | setKind node _ | setBinding node _ | setReadOnly node _ | persist node => node

/-- What a successful write does to the record of its node. -/
def apply : Write → Record → Record
  | setKind _ kind => Record.withKind kind
  | setBinding _ binding => fun record => { record with binding := some binding }
  | setReadOnly _ readOnly => fun record => { record with readOnly }
  | persist _ => id

def isPersist : Write → Bool
  | persist _ => true
  | _ => false

end Write

namespace Arena

def perform (arena : Arena) : Write → Except Error Unit × Arena
  | .setKind node kind => arena.setKind node kind
  | .setBinding node binding => arena.setBinding node binding
  | .setReadOnly node readOnly => arena.setReadOnly node readOnly
  | .persist node => arena.persist node

def run (arena : Arena) : List Write → Arena
  | [] => arena
  | write :: writes => (arena.perform write).2.run writes

/-- The writes of a run that were answered without an error. -/
def succeeded (arena : Arena) : List Write → List Write
  | [] => []
  | write :: writes =>
    let rest := (arena.perform write).2.succeeded writes
    if (arena.perform write).1.isOk then write :: rest else rest

end Arena

namespace Hierarchy

def perform (hierarchy : Hierarchy) : Write → Except Error Hierarchy
  | .setKind node kind => hierarchy.setKind node kind
  | .setBinding node binding => hierarchy.setBinding node binding
  | .setReadOnly node readOnly => hierarchy.setReadOnly node readOnly
  | .persist node => hierarchy.persist node

/-- A write that fails leaves the hierarchy as it was. -/
def run (hierarchy : Hierarchy) : List Write → Hierarchy
  | [] => hierarchy
  | write :: writes =>
    match hierarchy.perform write with
    | .ok after => after.run writes
    | .error _ => hierarchy.run writes

end Hierarchy

/-! ## Documents -/

namespace Document

/-- Every node has the writes applied that are addressed to it, in their order. -/
def after (document : Document) (writes : List Write) : Document :=
  document.mapPositions fun node record =>
    (writes.filter fun write => write.node = node).foldl (fun record write => write.apply record)
      record

theorem after_nil (document : Document) : document.after [] = document :=
  Tree.mapPositions_eq_self _ document fun _ _ => rfl

theorem after_cons (document : Document) (write : Write) (writes : List Write) :
    document.after (write :: writes) = after (document.modify write.apply write.node) writes := by
  rw [after, after, Tree.modify_eq_mapPositions, Tree.mapPositions_mapPositions]
  congr 1
  funext node record
  by_cases hNode : write.node = node
  · rw [List.filter_cons_of_pos (by simpa using hNode), if_pos hNode.symm, List.foldl_cons]
  · rw [List.filter_cons_of_neg (by simpa using hNode), if_neg (Ne.symm hNode)]

end Document

/-! ## One write -/

theorem Cell.ofPlace_map_editAt (node : NodeId) (change : Record → Record) (place : Place Node) :
    Cell.ofPlace (place.map (Node.editAt node change)) =
      if node = place.value.id then
        { Cell.ofPlace place with toRecord := change place.value.toRecord }
      else Cell.ofPlace place := by
  have hIds : Node.id ∘ Node.editAt node change = Node.id := funext fun other => by
    rw [Function.comp_apply, Node.editAt]
    split <;> rfl
  have hParent : (place.above.map (Node.editAt node change)).head?.map Node.id =
      place.above.head?.map Node.id := by
    rw [List.head?_map, Option.map_map, hIds]
  have hChildren : (place.below.map (Node.editAt node change)).roots.map Node.id =
      place.below.roots.map Node.id := by
    rw [Forest.roots_map, List.map_map, hIds]
  rw [Cell.ofPlace, Place.map, hParent, hChildren]
  split
  · rename_i hNode
    rw [Node.editAt, if_pos hNode.symm]
    rfl
  · rename_i hNode
    rw [Node.editAt_of_ne change (Ne.symm hNode)]
    rfl

namespace Arena

variable {arena : Arena} {hierarchy : Hierarchy}

theorem Represents.edit (h : Represents arena hierarchy) (node : NodeId)
    (change : Record → Record) :
    Represents (arena.edit node change) (hierarchy.modify node change) where
  cells := by
    refine List.ext_getElem? fun other => ?_
    have hPlaces : (hierarchy.modify node change).places[other]? =
        (hierarchy.place? other).map (Place.map (Node.editAt node change)) :=
      Hierarchy.place?_modify hierarchy node other change
    have hCells : arena.cells[other]? = (hierarchy.place? other).map Cell.ofPlace := h.cell? other
    rw [Arena.edit, List.getElem?_modify, List.getElem?_map, hPlaces, hCells]
    cases hPlace : hierarchy.place? other with
    | none => rfl
    | some place =>
      have hCell := Cell.ofPlace_map_editAt node change place
      rw [Hierarchy.id_of_place? hPlace] at hCell
      rw [Option.map_some, Option.map_some, Option.map_some, hCell]
      rfl
  persistCount := h.persistCount

theorem Represents.writable_cases (h : Represents arena hierarchy) (node : NodeId) :
    (∃ error, arena.writable node = .error error ∧ hierarchy.writable node = .error error) ∨
      ∃ place, hierarchy.place? node = some place ∧
        arena.writable node = .ok (Cell.ofPlace place) ∧
          hierarchy.writable node = .ok place.value.toRecord := by
  rw [Arena.writable, Hierarchy.writable, h.cell?]
  cases hPlace : hierarchy.place? node with
  | none => exact .inl ⟨_, rfl, rfl⟩
  | some place =>
    simp only [Option.map_some]
    by_cases hReadOnly : place.value.readOnly = true
    · have hCell : (Cell.ofPlace place).readOnly = true := hReadOnly
      rw [if_pos hCell, if_pos hReadOnly]
      exact .inl ⟨_, rfl, rfl⟩
    · have hCell : ¬ (Cell.ofPlace place).readOnly = true := hReadOnly
      rw [if_neg hCell, if_neg hReadOnly]
      exact .inr ⟨place, rfl, rfl, rfl⟩

/-- The answers are the same, and whatever fails changes nothing. -/
inductive Agrees (write : Write) (arena : Arena) (hierarchy : Hierarchy) :
    Except Error Unit × Arena → Except Error Hierarchy → Prop where
  | failed (error : Error) : Agrees write arena hierarchy (.error error, arena) (.error error)
  | succeeded {after : Arena} {next : Hierarchy} (represents : Represents after next)
      (document : next.document = hierarchy.document.modify write.apply write.node)
      (count : next.persistCount = hierarchy.persistCount + if write.isPersist then 1 else 0) :
      Agrees write arena hierarchy (.ok (), after) (.ok next)

theorem Represents.setKind (h : Represents arena hierarchy) (node : NodeId) (kind : Kind) :
    Agrees (.setKind node kind) arena hierarchy (arena.setKind node kind)
      (hierarchy.setKind node kind) := by
  rw [Arena.setKind, Hierarchy.setKind]
  rcases h.writable_cases node with ⟨error, hArena, hHierarchy⟩ | ⟨place, hPlace, hArena, hHierarchy⟩
  · rw [hArena, hHierarchy]
    exact .failed error
  · rw [hArena, hHierarchy]
    have hCell : (Cell.ofPlace place).binding = place.value.binding := rfl
    cases hBinding : place.value.binding with
    | none =>
      simp only [hCell, hBinding]
      exact .failed _
    | some binding =>
      simp only [hCell, hBinding]
      refine .succeeded (h.edit node _) ?_ rfl
      have hSame : (hierarchy.modify node fun record =>
          { record with binding := some { binding with kind } }) = hierarchy.withKind node kind := by
        refine Hierarchy.modify_congr fun other hOther => ?_
        rw [hPlace] at hOther
        cases hOther
        rw [Record.withKind, hBinding]
        rfl
      exact congrArg Hierarchy.document hSame

theorem Represents.setBinding (h : Represents arena hierarchy) (node : NodeId)
    (binding : Binding) :
    Agrees (.setBinding node binding) arena hierarchy (arena.setBinding node binding)
      (hierarchy.setBinding node binding) := by
  rw [Arena.setBinding, Hierarchy.setBinding]
  rcases h.writable_cases node with ⟨error, hArena, hHierarchy⟩ | ⟨place, _, hArena, hHierarchy⟩
  · rw [hArena, hHierarchy]
    exact .failed error
  · rw [hArena, hHierarchy]
    exact .succeeded (h.edit node _) rfl rfl

theorem Represents.setReadOnly (h : Represents arena hierarchy) (node : NodeId)
    (readOnly : Bool) :
    Agrees (.setReadOnly node readOnly) arena hierarchy (arena.setReadOnly node readOnly)
      (hierarchy.setReadOnly node readOnly) := by
  rw [Arena.setReadOnly, Hierarchy.setReadOnly, h.cell?]
  cases hierarchy.place? node with
  | none => exact .failed _
  | some place => exact .succeeded (h.edit node _) rfl rfl

theorem Represents.persist (h : Represents arena hierarchy) (node : NodeId) :
    Agrees (.persist node) arena hierarchy (arena.persist node) (hierarchy.persist node) := by
  rw [Arena.persist, Hierarchy.persist, h.cell?]
  cases hierarchy.place? node with
  | none => exact .failed _
  | some place =>
    exact .succeeded ⟨h.cells, congrArg (· + 1) h.persistCount⟩
      (Tree.modify_id node hierarchy.document).symm rfl

theorem Represents.perform (h : Represents arena hierarchy) (write : Write) :
    Agrees write arena hierarchy (arena.perform write) (hierarchy.perform write) := by
  cases write with
  | setKind node kind => exact h.setKind node kind
  | setBinding node binding => exact h.setBinding node binding
  | setReadOnly node readOnly => exact h.setReadOnly node readOnly
  | persist node => exact h.persist node

/-! ## Runs -/

theorem Represents.run (h : Represents arena hierarchy) (writes : List Write) :
    Represents (arena.run writes) (hierarchy.run writes) ∧
      (hierarchy.run writes).document = hierarchy.document.after (arena.succeeded writes) ∧
      (hierarchy.run writes).persistCount =
        hierarchy.persistCount + (arena.succeeded writes).countP Write.isPersist := by
  induction writes generalizing arena hierarchy with
  | nil => exact ⟨h, hierarchy.document.after_nil.symm, rfl⟩
  | cons write writes ih =>
    have hAgrees := h.perform write
    rw [Arena.run, Arena.succeeded, Hierarchy.run]
    generalize arena.perform write = answer, hierarchy.perform write = next at hAgrees
    cases hAgrees with
    | failed error => exact ih h
    | @succeeded after next represents document count =>
      obtain ⟨hRepresents, hDocument, hCount⟩ := ih represents
      refine ⟨hRepresents, hDocument.trans ?_, hCount.trans ?_⟩
      · change _ = hierarchy.document.after (write :: after.succeeded writes)
        rw [document, Document.after_cons]
      · change _ = _ + (write :: after.succeeded writes).countP Write.isPersist
        rw [count, List.countP_cons]
        omega

/-- The arena is the document, seen cell by cell and along the ways up and down. -/
structure Holds (arena : Arena) (document : Document) : Prop where
  length : arena.cells.length = document.size
  /-- Addresses are positions in pre-order. -/
  records : ∀ node, (arena.cell? node).map Cell.toRecord = document.values[node]?
  inverse : ∀ node child, child ∈ arena.children node ↔ arena.parent child = some node
  ascending : ∀ node, (arena.children node).Pairwise (· < ·)
  ordered : arena.Ordered
  pathOf : ∀ node, arena.pathOf ordered node = Hierarchy.pathOf ⟨document, 0⟩ node
  documentAt? : ∀ node, arena.documentAt? ordered node = Hierarchy.documentAt? ⟨document, 0⟩ node
  whole : arena.documentAt? ordered 0 = some document

theorem Represents.holds (h : Represents arena hierarchy) : Holds arena hierarchy.document where
  length := h.length
  records := by
    intro node
    rw [h.cell?, Hierarchy.getElem?_document_values, Option.map_map]
    rfl
  inverse := by
    intro node child
    rw [h.children, h.parent]
    exact Hierarchy.mem_children_iff
  ascending := by
    intro node
    rw [h.children]
    exact hierarchy.pairwise_children node
  ordered := h.ordered
  pathOf := h.pathOf h.ordered
  documentAt? := h.documentAt? h.ordered
  whole := (h.documentAt? h.ordered 0).trans hierarchy.documentAt?_zero

/-- What a run of writes makes of an arena that was loaded. -/
structure RunHolds (document : Document) (writes : List Write) : Prop where
  holds : Holds ((load document).run writes) (document.after ((load document).succeeded writes))
  count : ((load document).run writes).persistCount =
    ((load document).succeeded writes).countP Write.isPersist
  /-- A write that fails next would leave the arena as it is. -/
  failed : ∀ write error, (((load document).run writes).perform write).1 = .error error →
    (((load document).run writes).perform write).2 = (load document).run writes
  represents : Represents ((load document).run writes) (Hierarchy.run ⟨document, 0⟩ writes)

theorem run_load_holds (document : Document) (h : document.size ≤ capacity) (writes : List Write) :
    RunHolds document writes := by
  obtain ⟨hRepresents, hDocument, hCount⟩ := (represents_load h).run writes
  refine ⟨hDocument ▸ hRepresents.holds, ?_, ?_, hRepresents⟩
  · rw [hRepresents.persistCount, hCount, Nat.zero_add]
  · intro write error hError
    have hAgrees := hRepresents.perform write
    generalize ((load document).run writes).perform write = answer,
      (Hierarchy.run ⟨document, 0⟩ writes).perform write = next at hAgrees hError
    cases hAgrees with
    | failed => rfl
    | succeeded => cases hError

def lockedSlots : Document :=
  ⟨{ label := "Hud" }, .cons { label := "Left", readOnly := true } .nil
    (.cons { label := "Right" } (.cons { label := "Icon" } .nil .nil) .nil)⟩

/-- Writes to a locked node, to a node without a binding and to no node at all fail. -/
def mixedWrites : List Write :=
  [.setBinding 1 .leaf, .setReadOnly 1 false, .setBinding 1 .leaf, .setKind 3 .member, .persist 4,
    .setKind 1 .member, .persist 0]

theorem run_load_holds_lockedSlots : lockedSlots.size ≤ capacity ∧
    (load lockedSlots).succeeded mixedWrites =
      [.setReadOnly 1 false, .setBinding 1 .leaf, .setKind 1 .member, .persist 0] ∧
    RunHolds lockedSlots mixedWrites := by
  have hRoom : lockedSlots.size ≤ capacity := by decide
  exact ⟨hRoom, by decide, run_load_holds lockedSlots hRoom mixedWrites⟩

end Arena

end TemplateBinding
