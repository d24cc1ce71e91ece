import TemplateBinding.Arena
import TemplateBinding.Proofs.LabelPaths

/-!
# Loading an arena

An arena represents a hierarchy when its cells are the places of the hierarchy, in their order.  Then
parents and children agree, parents stand before their children, and the ways up and down the arena
give what the hierarchy gives.  A document that is loaded is represented, as long as there are
addresses for all its nodes.
-/
namespace TemplateBinding
set_option autoImplicit false

/-- What an arena keeps of a place. -/
def Cell.ofPlace (place : Place Node) : Cell where
  toRecord := place.value.toRecord
  parent := place.above.head?.map Node.id
  children := place.below.roots.map Node.id

/-! ## Parents and children -/

namespace Hierarchy

variable {hierarchy : Hierarchy} {node child : NodeId} {place : Place Node}

theorem pairwise_ids_of_place? (h : hierarchy.place? node = some place) :
    (place.values.map Node.id).Pairwise (· < ·) := by
  have hSublist := (Tree.values_sublist_of_mem_places (mem_places_of_place? h)).map Node.id
  rw [map_id_nodes] at hSublist
  exact List.pairwise_lt_range.sublist hSublist

theorem pairwise_children (hierarchy : Hierarchy) (node : NodeId) :
    (hierarchy.children node).Pairwise (· < ·) := by
  rw [children]
  cases hPlace : hierarchy.place? node with
  | none => exact .nil
  | some place =>
    have hBelow := (List.pairwise_cons.mp (pairwise_ids_of_place? hPlace)).2
    exact hBelow.sublist (place.below.roots_sublist_values.map Node.id)

theorem lt_of_mem_children (h : child ∈ hierarchy.children node) : node < child := by
  rw [children] at h
  cases hPlace : hierarchy.place? node with
  | none =>
    rw [hPlace] at h
    cases h
  | some place =>
    rw [hPlace, Option.elim_some] at h
    have hBelow := (List.pairwise_cons.mp (pairwise_ids_of_place? hPlace)).1 child
      ((place.below.roots_sublist_values.map Node.id).subset h)
    rwa [id_of_place? hPlace] at hBelow

theorem mem_children_iff : child ∈ hierarchy.children node ↔ hierarchy.parent child = some node := by
  rw [children, parent]
  constructor
  · intro h
    cases hPlace : hierarchy.place? node with
    | none =>
      rw [hPlace] at h
      cases h
    | some place =>
      rw [hPlace, Option.elim_some] at h
      obtain ⟨value, hValue, rfl⟩ := List.mem_map.mp h
      obtain ⟨inner, hInner, hAbove, rfl⟩ :=
        Tree.exists_place_of_mem_roots (mem_places_of_place? hPlace) hValue
      rw [place?_of_mem_places hInner, Option.bind_some, hAbove, List.head?_cons, Option.map_some,
        id_of_place? hPlace]
  · intro h
    obtain ⟨place, hPlace, hParent⟩ := Option.bind_eq_some_iff.mp h
    rcases Tree.place_cases (mem_places_of_place? hPlace) with rfl | ⟨above, hAbove, hHead, hRoot⟩
    · cases hParent
    · rw [hHead, List.head?_cons, Option.map_some, Option.some_inj] at hParent
      rw [← hParent, place?_of_mem_places hAbove, Option.elim_some, ← id_of_place? hPlace]
      exact List.mem_map_of_mem hRoot

end Hierarchy

namespace Arena

/-! ## Loading -/

section Loading

variable {α : Type} {first second : List α}

theorem modify_append_of_lt {index : Nat} (h : index < first.length) (change : α → α) :
    (first ++ second).modify index change = first.modify index change ++ second := by
  induction first generalizing index with
  | nil => cases h
  | cons value first ih =>
    cases index with
    | zero => rfl
    | succ index =>
      simp only [List.cons_append, List.modify_succ_cons, ih (Nat.lt_of_succ_lt_succ h)]

theorem modify_append_length (value : α) (change : α → α) :
    (first ++ [value]).modify first.length change = first ++ [change value] := by
  induction first with
  | nil => rfl
  | cons other first ih =>
    simp only [List.cons_append, List.length_cons, List.modify_succ_cons, ih]

/-- The nodes of a forest that is appended after so many others. -/
def numbered (start : NodeId) (forest : Forest Record) : Forest Node :=
  forest.mapPositions (fun id record => { record with id }) start

def rootsOf (start : NodeId) (forest : Forest Record) : List NodeId :=
  (numbered start forest).roots.map Node.id

def adoptAll (children : List NodeId) (cell : Cell) : Cell :=
  { cell with children := cell.children ++ children }

theorem adoptAll_nil : adoptAll [] = id := by
  funext cell
  rw [adoptAll, List.append_nil]
  rfl

theorem adoptAll_comp (earlier later : List NodeId) :
    adoptAll later ∘ adoptAll earlier = adoptAll (earlier ++ later) := by
  funext cell
  simp only [Function.comp_apply, adoptAll, List.append_assoc]

theorem nextAddress_eq {arena : Arena} (h : arena.cells.length < capacity) :
    arena.nextAddress = arena.cells.length := Nat.mod_eq_of_lt h

/-- The nodes below a node are appended in pre-order, and only the list of its children changes. -/
theorem cells_insertBelow (arena : Arena) (parent : NodeId) (forest : Forest Record)
    (above : List Node) (hAbove : above.head?.map Node.id = some parent)
    (hParent : parent < arena.cells.length)
    (hRoom : arena.cells.length + forest.size ≤ capacity) :
    (arena.insertBelow parent forest).cells =
      arena.cells.modify parent (adoptAll (rootsOf arena.cells.length forest)) ++
        ((numbered arena.cells.length forest).places above).map Cell.ofPlace := by
  induction forest generalizing arena parent above with
  | nil =>
    change arena.cells = arena.cells.modify parent (adoptAll []) ++ []
    rw [adoptAll_nil, List.modify_id, List.append_nil]
  | cons record below rest hBelow hRest =>
    obtain ⟨start, hStart⟩ : ∃ start, arena.cells.length = start := ⟨_, rfl⟩
    rw [Forest.size, hStart] at hRoom
    have hAddress : arena.nextAddress = start := (nextAddress_eq (by omega)).trans hStart
    let node : Node := { record with id := start }
    let place : Place Node := ⟨above, node, numbered (start + 1) below⟩
    let inner := ((numbered (start + 1) below).places (node :: above)).map Cell.ofPlace
    have hInner : inner.length = below.size := by
      simp only [inner, List.length_map, Forest.length_places, numbered, Forest.size_mapPositions]
    -- Everything below the node comes first, then the node becomes a child, then the rest follows.
    have hPushed : (arena.push record (some parent)).cells.length = start + 1 := by
      simp only [push, List.length_append, List.length_singleton, hStart]
    have hComplete : ((arena.push record (some parent)).insertBelow start below).cells =
        arena.cells ++ Cell.ofPlace place :: inner := by
      rw [hBelow _ start (node :: above) rfl (by rw [hPushed]; exact Nat.lt_succ_self start)
        (by omega), hPushed, push, ← hStart, modify_append_length, hStart, adoptAll,
        List.append_assoc]
      simp only [Cell.ofPlace, place, hAbove, rootsOf, List.nil_append, List.singleton_append]
      rfl
    have hAdopted : (((arena.push record (some parent)).insertBelow start below).adopt parent
        start).cells =
        arena.cells.modify parent (adoptAll [start]) ++ Cell.ofPlace place :: inner := by
      rw [adopt, hComplete]
      exact modify_append_of_lt hParent (adoptAll [start])
    have hLength : (((arena.push record (some parent)).insertBelow start below).adopt parent
        start).cells.length = start + 1 + below.size := by
      rw [hAdopted, List.length_append, List.length_modify, List.length_cons, hInner, hStart]
      omega
    rw [hStart] at hParent
    have hLater : parent < start + 1 + below.size := Nat.lt_of_lt_of_le hParent (by omega)
    rw [insertBelow, hAddress, hRest _ parent above hAbove (by rwa [hLength]) (by omega), hLength,
      hAdopted, modify_append_of_lt (by rwa [List.length_modify, hStart]), List.modify_modify_eq,
      adoptAll_comp, List.append_assoc, hStart]
    simp only [numbered, Forest.mapPositions, Forest.places, List.map_cons, List.map_append]
    rfl

end Loading

/-! ## What an arena represents -/

structure Represents (arena : Arena) (hierarchy : Hierarchy) : Prop where
  cells : arena.cells = hierarchy.places.map Cell.ofPlace
  persistCount : arena.persistCount = hierarchy.persistCount

theorem persistCount_insertBelow (arena : Arena) (parent : NodeId) (forest : Forest Record) :
    (arena.insertBelow parent forest).persistCount = arena.persistCount := by
  induction forest generalizing arena parent with
  | nil => rfl
  | cons record below rest hBelow hRest =>
    rw [insertBelow, hRest]
    exact hBelow _ _

theorem represents_load {document : Document} (h : document.size ≤ capacity) :
    Represents (load document) ⟨document, 0⟩ where
  cells := by
    let arena : Arena := push {} document.root none
    let node : Node := { document.root with id := 0 }
    have hRoom : arena.cells.length + document.children.size ≤ capacity := by
      rw [Nat.add_comm]
      exact h
    exact cells_insertBelow arena 0 document.children [node] rfl Nat.one_pos hRoom
  persistCount := persistCount_insertBelow _ _ _

namespace Represents

variable {arena : Arena} {hierarchy : Hierarchy}

theorem cell? (h : Represents arena hierarchy) (node : NodeId) :
    arena.cell? node = (hierarchy.place? node).map Cell.ofPlace := by
  rw [Arena.cell?, h.cells, List.getElem?_map]
  rfl

theorem length (h : Represents arena hierarchy) : arena.cells.length = hierarchy.document.size := by
  rw [h.cells, List.length_map, Hierarchy.places, Tree.length_places, ← Tree.length_values,
    ← List.length_map (f := Node.id), Hierarchy.map_id_nodes, List.length_range]

theorem label (h : Represents arena hierarchy) (node : NodeId) :
    arena.label node = hierarchy.label node := by
  rw [Arena.label, Hierarchy.label, h.cell?]
  cases hierarchy.place? node <;> rfl

theorem parent (h : Represents arena hierarchy) (node : NodeId) :
    arena.parent node = hierarchy.parent node := by
  rw [Arena.parent, Hierarchy.parent, h.cell?]
  cases hierarchy.place? node <;> rfl

theorem children (h : Represents arena hierarchy) (node : NodeId) :
    arena.children node = hierarchy.children node := by
  rw [Arena.children, Hierarchy.children, h.cell?]
  cases hierarchy.place? node <;> rfl

theorem ordered (h : Represents arena hierarchy) : arena.Ordered where
  parent := by
    intro node above hParent
    rw [h.parent] at hParent
    exact Hierarchy.lt_of_mem_children (Hierarchy.mem_children_iff.mpr hParent)
  children := by
    intro node child hChild
    rw [h.children] at hChild
    exact Hierarchy.lt_of_mem_children hChild

/-! ## The way up -/

theorem labelsUp_of_mem_places (h : Represents arena hierarchy) (ordered : arena.Ordered)
    {place : Place Node} (hPlace : place ∈ hierarchy.places) :
    arena.labelsUp ordered place.value.id = (Hierarchy.labels place).reverse := by
  -- By induction on the number of nodes above.
  induction hLength : place.above.length generalizing place with
  | zero =>
    have hTop : place.above = [] := List.eq_nil_of_length_eq_zero hLength
    rw [labelsUp_eq, h.label, h.parent, Hierarchy.label, Hierarchy.parent,
      Hierarchy.place?_of_mem_places hPlace, Option.bind_some, hTop, Hierarchy.labels_of_top hTop]
    rfl
  | succ length ih =>
    rcases Tree.place_cases hPlace with rfl | ⟨above, hAbove, hHead, _⟩
    · cases hLength
    · rw [hHead, List.length_cons] at hLength
      rw [labelsUp_eq, h.label, h.parent, Hierarchy.label, Hierarchy.parent,
        Hierarchy.place?_of_mem_places hPlace, Option.bind_some, hHead, List.head?_cons,
        Option.map_some, Option.elim_some, Option.elim_some, ih hAbove (Nat.succ.inj hLength),
        Hierarchy.labels_eq_concat hHead, List.reverse_append]
      rfl

theorem pathOf (h : Represents arena hierarchy) (ordered : arena.Ordered) (node : NodeId) :
    arena.pathOf ordered node = hierarchy.pathOf node := by
  rw [Arena.pathOf, Hierarchy.pathOf]
  cases hPlace : hierarchy.place? node with
  | none =>
    rw [labelsUp_eq, h.label, h.parent, Hierarchy.label, Hierarchy.parent, hPlace]
    rfl
  | some place =>
    have hUp := h.labelsUp_of_mem_places ordered (Hierarchy.mem_places_of_place? hPlace)
    rw [Hierarchy.id_of_place? hPlace] at hUp
    rw [hUp, List.reverse_reverse, Option.elim_some]

/-! ## The way down -/

theorem documents_below (h : Represents arena hierarchy) (ordered : arena.Ordered)
    (above : List Node) (forest : Forest Node)
    (hPlaces : ∀ place ∈ forest.places above, place ∈ hierarchy.places) :
    Forest.ofTrees ((forest.roots.map Node.id).filterMap (arena.documentAt? ordered)) =
      forest.map Node.toRecord := by
  induction forest generalizing above with
  | nil => rfl
  | cons value below rest hBelow hRest =>
    have hHere := hPlaces ⟨above, value, below⟩ List.mem_cons_self
    have hBelow' := hBelow (value :: above) fun place hPlace =>
      hPlaces place (List.mem_cons_of_mem _ (List.mem_append_left _ hPlace))
    have hRest' := hRest above fun place hPlace =>
      hPlaces place (List.mem_cons_of_mem _ (List.mem_append_right _ hPlace))
    have hCell : arena.cell? value.id = some (Cell.ofPlace ⟨above, value, below⟩) := by
      rw [h.cell?, Hierarchy.place?_of_mem_places hHere, Option.map_some]
    have hDocument : arena.documentAt? ordered value.id =
        some ⟨value.toRecord, below.map Node.toRecord⟩ := by
      rw [documentAt?_eq, hCell, Option.map_some, ← hBelow']
      rfl
    rw [Forest.roots, List.map_cons, List.filterMap_cons_some hDocument, Forest.ofTrees, hRest',
      Forest.map]

theorem documentAt? (h : Represents arena hierarchy) (ordered : arena.Ordered) (node : NodeId) :
    arena.documentAt? ordered node = hierarchy.documentAt? node := by
  rw [documentAt?_eq, h.cell?, Hierarchy.documentAt?, Option.map_map]
  cases hPlace : hierarchy.place? node with
  | none => rfl
  | some place =>
    have hBelow := h.documents_below ordered (place.value :: place.above) place.below
      fun inner hInner =>
        Tree.mem_places_of_mem_below (Hierarchy.mem_places_of_place? hPlace) hInner
    rw [Option.map_some, Option.map_some, Tree.ofPlace, Tree.map, ← hBelow]
    rfl

end Represents

end Arena

end TemplateBinding
