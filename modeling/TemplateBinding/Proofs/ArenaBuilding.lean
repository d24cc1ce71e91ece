import TemplateBinding.BindingArena
import TemplateBinding.Proofs.ArenaLoading

/-!
# Building a tree in a row

A row represents a binding tree when its cells are the places of the tree, in their order, and it
records the same hidden nodes.  The walk that fills a row appends the entries below an entry in
pre-order, changes nothing else but the list of its children, and puts the stack of labels back.  So
what it builds represents the tree of the hierarchy, and the ways up and the searches in the row give
what the tree gives.
-/
namespace TemplateBinding
set_option autoImplicit false

open BindingTree (Slot)

/-- What a row keeps of a place. -/
def BindingCell.ofPlace (place : Place Slot) : BindingCell where
  node := place.value.node
  label := place.value.label
  binding := place.value.binding
  capabilities := place.value.capabilities
  parent := place.parent?
  children := place.children
  depth := place.depth
  path := place.value.path
  findings := place.value.findings

/-- The cell learns of entries below it. -/
def BindingCell.adopt (children : List Nat) (cell : BindingCell) : BindingCell :=
  { cell with children := cell.children ++ children }

namespace BindingCell

theorem ofPlace_retype (index : Nat) (kind : Kind) (place : Place Slot) :
    ofPlace (place.map (Slot.retype index kind)) =
      if index = place.value.index then
        { ofPlace place with
          binding := place.value.binding.map fun binding => { binding with kind } }
      else ofPlace place := by
  have h := BindingTree.sameButKind_map_retype index kind place
  rw [ofPlace, h.node, h.label, h.binding, h.capabilities, h.path, h.findings, h.parent,
    h.children, h.depth]
  split
  · rename_i hHere
    rw [if_pos hHere.symm]
    rfl
  · rename_i hOther
    rw [if_neg (Ne.symm hOther)]
    rfl

theorem adopt_nil : adopt [] = id := by
  funext cell
  rw [adopt, List.append_nil]
  rfl

theorem adopt_comp (earlier later : List Nat) :
    adopt later ∘ adopt earlier = adopt (earlier ++ later) := by
  funext cell
  simp only [Function.comp_apply, adopt, List.append_assoc]

end BindingCell

namespace BindingArena

/-- The entries of a forest that is appended after so many others. -/
def numbered (start : Nat) (forest : Forest Entry) : Forest Slot :=
  forest.mapPositions (fun index entry => { entry with index }) start

theorem numbered_append (start : Nat) (first second : Forest Entry) :
    numbered start (first ++ second) =
      numbered start first ++ numbered (start + first.size) second :=
  Forest.mapPositions_append _ start first second

/-- What a leaf hides, with the index of the leaf. -/
def shadows (slot : Slot) : List (Nat × Hidden) :=
  slot.hidden.map fun hidden => (slot.index, hidden)

/-- The entries lead up from the cell at the index, which knows how deep it is. -/
structure Under (cells : List BindingCell) (parent : Nat) (above : List Slot) : Prop where
  index : above.head?.map Slot.index = some parent
  depth : ∃ cell, cells[parent]? = some cell ∧ cell.depth + 1 = above.length

namespace Under

variable {cells : List BindingCell} {parent : Nat} {above : List Slot}

theorem lt_length (h : Under cells parent above) : parent < cells.length := by
  obtain ⟨cell, hCell, _⟩ := h.depth
  exact (List.getElem?_eq_some_iff.mp hCell).1

theorem grow (h : Under cells parent above) (children : List Nat) (more : List BindingCell) :
    Under (cells.modify parent (BindingCell.adopt children) ++ more) parent above where
  index := h.index
  depth := by
    obtain ⟨cell, hCell, hDepth⟩ := h.depth
    refine ⟨cell.adopt children, ?_, hDepth⟩
    rw [List.getElem?_append_left (by rw [List.length_modify]; exact h.lt_length),
      List.getElem?_modify_eq, hCell]
    rfl

end Under

namespace Walk

variable {walk before middle after : Walk} {parent : Nat} {above : List Slot}
  {entries : Forest Slot}

/-- What a part of a walk does that hangs the entries under the one with the index. -/
structure Adds (parent : Nat) (above : List Slot) (entries : Forest Slot) (before after : Walk) :
    Prop where
  path : after.path = before.path
  cells : after.arena.cells =
    before.arena.cells.modify parent (BindingCell.adopt (entries.roots.map Slot.index)) ++
      (entries.places above).map BindingCell.ofPlace
  shadowed : after.arena.shadowed = before.arena.shadowed ++ entries.values.flatMap shadows

namespace Adds

theorem nil (parent : Nat) (above : List Slot) (walk : Walk) : Adds parent above .nil walk walk where
  path := rfl
  cells := by
    rw [Forest.roots, List.map_nil, BindingCell.adopt_nil, List.modify_id, Forest.places,
      List.map_nil, List.append_nil]
  shadowed := by rw [Forest.values, List.flatMap_nil, List.append_nil]

theorem next (h : Adds parent above entries before after) :
    after.next = before.next + entries.size := by
  rw [Walk.next, h.cells, List.length_append, List.length_modify, List.length_map,
    Forest.length_places]
  rfl

theorem under (h : Adds parent above entries before after)
    (hUnder : Under before.arena.cells parent above) : Under after.arena.cells parent above := by
  rw [h.cells]
  exact hUnder.grow _ _

theorem append {first second : Forest Slot} (hUnder : Under before.arena.cells parent above)
    (hFirst : Adds parent above first before middle)
    (hSecond : Adds parent above second middle after) :
    Adds parent above (first ++ second) before after where
  path := hSecond.path.trans hFirst.path
  cells := by
    have hParent : parent < (before.arena.cells.modify parent
        (BindingCell.adopt (first.roots.map Slot.index))).length := by
      rw [List.length_modify]
      exact hUnder.lt_length
    rw [hSecond.cells, hFirst.cells, Arena.modify_append_of_lt hParent, List.modify_modify_eq,
      BindingCell.adopt_comp, List.append_assoc, Forest.roots_append, List.map_append,
      Forest.places_concat, List.map_append]
  shadowed := by
    rw [hSecond.shadowed, hFirst.shadowed, Forest.values_append, List.flatMap_append,
      List.append_assoc]

/-- What is added while the stack holds one more label. -/
theorem leave {label : String} (h : Adds parent above entries (before.enter label) after) :
    Adds parent above entries before after.leave where
  path := by
    rw [Walk.leave, h.path, enter, List.dropLast_concat]
  cells := h.cells
  shadowed := h.shadowed

/-- What follows is numbered from where the first part ends. -/
theorem followedBy {first second : Forest Entry} (hUnder : Under before.arena.cells parent above)
    (hFirst : Adds parent above (numbered before.next first) before middle)
    (hSecond : Adds parent above (numbered middle.next second) middle after) :
    Adds parent above (numbered before.next (first ++ second)) before after := by
  have hNext : middle.next = before.next + first.size := by
    rw [hFirst.next, numbered, Forest.size_mapPositions]
  rw [hNext] at hSecond
  rw [numbered_append]
  exact hFirst.append hUnder hSecond

variable {slot : Slot} {below : Forest Slot}

/-- An entry that was appended last can get entries below it. -/
theorem under_slot (h : Adds parent above (.cons slot .nil .nil) before middle)
    (hIndex : slot.index = before.next) : Under middle.arena.cells slot.index (slot :: above) where
  index := rfl
  depth := by
    refine ⟨BindingCell.ofPlace ⟨above, slot, .nil⟩, ?_, rfl⟩
    rw [h.cells, hIndex, List.getElem?_append_right (by rw [List.length_modify]; exact Nat.le_refl _),
      List.length_modify, Walk.next, Nat.sub_self]
    rfl

theorem deepen (h : Adds parent above (.cons slot .nil .nil) before middle)
    (hIndex : slot.index = before.next)
    (hBelow : Adds slot.index (slot :: above) below middle after) :
    Adds parent above (.cons slot below .nil) before after where
  path := hBelow.path.trans h.path
  cells := by
    let others := before.arena.cells.modify parent (BindingCell.adopt [slot.index])
    have hLast : slot.index = others.length := by
      rw [hIndex, List.length_modify]
      rfl
    have hCells : middle.arena.cells = others ++ [BindingCell.ofPlace ⟨above, slot, .nil⟩] := h.cells
    rw [hBelow.cells, hCells, hLast, Arena.modify_append_length, List.append_assoc,
      List.singleton_append]
    simp only [Forest.roots, Forest.places, List.append_nil, List.map_cons, List.map_nil]
    rfl
  shadowed := by
    rw [hBelow.shadowed, h.shadowed, List.append_assoc]
    simp only [Forest.values, List.append_nil, List.flatMap_cons, List.flatMap_nil]

end Adds

/-! ## The walk -/

/-- The entry that is appended for the node that the stack leads to. -/
def entry (walk : Walk) (node : Node) (binding : Binding) (hidden : List Hidden) : Entry :=
  { BindingTree.entryOf walk.path node binding with hidden }

theorem adds_attach (h : Under walk.arena.cells parent above) (node : Node) (binding : Binding) :
    Adds parent above (numbered walk.next (.cons (walk.entry node binding []) .nil .nil)) walk
      (walk.attach node binding parent) where
  path := rfl
  cells := by
    obtain ⟨cell, hCell, hDepth⟩ := h.depth
    have hAbove : walk.arena.depth parent + 1 = above.length := by
      rw [BindingArena.depth, cell?, hCell]
      exact hDepth
    rw [attach, Arena.modify_append_of_lt h.lt_length, hAbove, ← h.index]
    rfl
  shadowed := (List.append_nil _).symm

/-- Below a leaf only the list of hidden nodes grows. -/
theorem collect_eq (boundary : Nat) (forest : Forest Node) (walk : Walk) :
    walk.collect boundary forest = { walk with
      arena := { walk.arena with
        shadowed := walk.arena.shadowed ++
          (BindingTree.hiddenIn walk.path forest).map fun hidden => (boundary, hidden) } } := by
  induction forest generalizing walk with
  | nil => simp only [collect, BindingTree.hiddenIn, List.map_nil, List.append_nil]
  | cons node below rest hBelow hRest =>
    rw [collect, hRest, hBelow, BindingTree.hiddenIn]
    cases node.binding <;> simp [enter, leave, hide]

theorem adds_collect (h : Under walk.arena.cells parent above) (node : Node) (binding : Binding)
    (forest : Forest Node) :
    Adds parent above
      (numbered walk.next
        (.cons (walk.entry node binding (BindingTree.hiddenIn walk.path forest)) .nil .nil))
      walk ((walk.attach node binding parent).collect walk.next forest) := by
  rw [collect_eq]
  refine ⟨rfl, (adds_attach h node binding).cells, ?_⟩
  simp [numbered, Forest.mapPositions, Forest.values, shadows, entry, attach]

/-- The walk through a forest hangs the entries of its annotated nodes under the entry above. -/
theorem adds_descend (forest : Forest Node) (walk : Walk) (h : Under walk.arena.cells parent above) :
    Adds parent above (numbered walk.next (BindingTree.contract walk.path forest)) walk
      (walk.descend parent forest) := by
  induction forest generalizing walk parent above with
  | nil => exact .nil parent above walk
  | cons node below rest hBelow hRest =>
    let entered := walk.enter node.label
    have hEntered : Under entered.arena.cells parent above := h
    -- What is added for the node comes first, with its label on the stack, and then the rest.
    have hFollowed (entries : Forest Entry) {walked : Walk}
        (hFirst : Adds parent above (numbered walk.next entries) entered walked) :
        Adds parent above
          (numbered walk.next (entries ++ BindingTree.contract walk.path rest)) walk
          (walked.leave.descend parent rest) := by
      have hSecond := hRest walked.leave (hFirst.leave.under h)
      rw [hFirst.leave.path] at hSecond
      exact hFirst.leave.followedBy h hSecond
    rw [descend, BindingTree.contract]
    cases node.binding with
    | none => exact hFollowed _ (hBelow entered hEntered)
    | some binding =>
      dsimp only
      split
      · exact hFollowed (.cons (entered.entry node binding _) .nil .nil)
          (adds_collect hEntered node binding below)
      · have hAttached := adds_attach hEntered node binding
        have hInner := hBelow _ (hAttached.under_slot rfl)
        rw [hAttached.next] at hInner
        exact hFollowed (.cons (entered.entry node binding []) _ .nil) (hAttached.deepen rfl hInner)

end Walk

/-! ## What a row represents -/

structure Represents (arena : BindingArena) (tree : BindingTree) : Prop where
  cells : arena.cells = tree.places.map BindingCell.ofPlace
  shadowed : arena.shadowed = tree.shadowed

/-- The slot of the entry for the template itself. -/
def topSlot (hierarchy : Hierarchy) (root : NodeId) : Slot where
  node := root
  label := hierarchy.label root
  binding := none
  capabilities := hierarchy.capabilities root
  path := [hierarchy.label root]
  index := top

theorem under_start (hierarchy : Hierarchy) (root : NodeId) :
    Under (start hierarchy root).arena.cells top [topSlot hierarchy root] where
  index := rfl
  depth := ⟨BindingCell.ofPlace ⟨[], topSlot hierarchy root, .nil⟩, rfl, rfl⟩

/-- A walk from the top that hangs the entries of a tree under its top builds this tree. -/
theorem represents_of_adds {hierarchy : Hierarchy} {root : NodeId} {tree : BindingTree}
    {walk : Walk} (hTop : tree.slots.root = topSlot hierarchy root)
    (h : Walk.Adds top [topSlot hierarchy root] tree.slots.children (start hierarchy root) walk) :
    Represents walk.arena tree where
  cells := by
    have hPlaces : tree.places = ⟨[], topSlot hierarchy root, tree.slots.children⟩ ::
        tree.slots.children.places [topSlot hierarchy root] := by
      rw [← hTop]
      rfl
    rw [h.cells, hPlaces, List.map_cons]
    rfl
  shadowed := by
    have hHidden : tree.slots.root.hidden = [] := by
      rw [hTop]
      rfl
    rw [h.shadowed, BindingTree.shadowed, Tree.values, List.flatMap_cons, hHidden]
    rfl

/-- The walk down a hierarchy builds its tree. -/
theorem represents_build (hierarchy : Hierarchy) (root : NodeId) :
    Represents (build hierarchy root) (BindingTree.build hierarchy root) := by
  have hUnder := under_start hierarchy root
  rw [build, BindingTree.build]
  cases hPlace : hierarchy.place? root with
  | none =>
    have hTop : (BindingTree.ofUnknown root).slots.root = topSlot hierarchy root := by
      simp only [topSlot, Hierarchy.label, Hierarchy.capabilities, hPlace, Option.elim_none]
      rfl
    exact represents_of_adds hTop (.nil top [topSlot hierarchy root] _)
  | some place =>
    obtain rfl := Hierarchy.id_of_place? hPlace
    have hLabel : hierarchy.label place.value.id = place.value.label := by
      rw [Hierarchy.label, hPlace, Option.elim_some]
    have hTop : (BindingTree.ofPlace place).slots.root = topSlot hierarchy place.value.id := by
      simp only [topSlot, hLabel, Hierarchy.capabilities, hPlace, Option.elim_some]
      rfl
    have hPath : (start hierarchy place.value.id).path = [place.value.label] := by
      rw [start, hLabel]
    dsimp only
    cases hBinding : place.value.binding with
    | none =>
      have hChildren : BindingTree.contract [place.value.label] place.below =
          (BindingTree.ofPlace place).children := by rw [BindingTree.ofPlace, hBinding]
      have hBelow := Walk.adds_descend place.below _ hUnder
      rw [hPath, hChildren] at hBelow
      exact represents_of_adds hTop hBelow
    | some binding =>
      have hChildren : .cons (BindingTree.entryOf [place.value.label] place.value binding)
          (BindingTree.contract [place.value.label] place.below) .nil =
            (BindingTree.ofPlace place).children := by rw [BindingTree.ofPlace, hBinding]
      have hAttached := Walk.adds_attach hUnder place.value binding
      have hBelow := Walk.adds_descend place.below _ (hAttached.under_slot rfl)
      rw [hAttached.path, hAttached.next] at hBelow
      have hWhole : Walk.Adds top [topSlot hierarchy place.value.id]
          (numbered 1 (.cons (BindingTree.entryOf (start hierarchy place.value.id).path place.value
            binding) (BindingTree.contract (start hierarchy place.value.id).path place.below) .nil))
          (start hierarchy place.value.id) _ := hAttached.deepen rfl hBelow
      rw [hPath, hChildren] at hWhole
      exact represents_of_adds hTop hWhole

/-! ## Reading and editing -/

namespace Represents

variable {arena : BindingArena} {tree : BindingTree} {place : Place Slot} {index : Nat}

theorem cell?_eq (h : Represents arena tree) (index : Nat) :
    arena.cell? index = tree.places[index]?.map BindingCell.ofPlace := by
  rw [cell?, h.cells, List.getElem?_map]

theorem parent_of_mem_places (h : Represents arena tree) (hPlace : place ∈ tree.places) :
    arena.parent place.value.index = place.parent? := by
  rw [parent, h.cell?_eq, BindingTree.getElem?_places hPlace]
  rfl

theorem ordered (h : Represents arena tree) : arena.Ordered := by
  intro index above hParent
  rw [parent, h.cell?_eq] at hParent
  obtain ⟨cell, hCell, hAbove⟩ := Option.bind_eq_some_iff.mp hParent
  obtain ⟨place, hFound, rfl⟩ := Option.map_eq_some_iff.mp hCell
  have hPlace := List.mem_of_getElem? hFound
  rw [← BindingTree.index_of_getElem?_places hFound]
  rcases Tree.place_cases hPlace with rfl | ⟨parent, hParentPlace, hHead, hRoot⟩
  · cases hAbove
  · have hIndex : some parent.value.index = some above := by
      rw [← hAbove, BindingCell.ofPlace, Place.parent?, hHead]
      rfl
    rw [← Option.some.inj hIndex]
    exact BindingTree.index_lt_of_mem_below hParentPlace
      (parent.below.roots_sublist_values.subset hRoot)

/-- The way up in the row passes the entries above, nearest first. -/
theorem ancestors_of_mem_places (h : Represents arena tree) (ordered : arena.Ordered)
    (hPlace : place ∈ tree.places) :
    arena.ancestors ordered place.value.index = place.ancestors := by
  -- By induction on the number of entries above.
  induction hDepth : place.depth generalizing place with
  | zero =>
    have hTop : place.above = [] := List.eq_nil_of_length_eq_zero hDepth
    rw [ancestors_eq, h.parent_of_mem_places hPlace, Place.parent?, Place.ancestors, hTop]
    rfl
  | succ depth ih =>
    rcases Tree.place_cases hPlace with rfl | ⟨parent, hParent, hHead, _⟩
    · cases hDepth
    · rw [Place.depth, hHead, List.length_cons] at hDepth
      rw [ancestors_eq, h.parent_of_mem_places hPlace, Place.parent?, Place.ancestors, hHead,
        List.head?_cons, Option.map_some, Option.elim_some, ih hParent (Nat.succ.inj hDepth)]
      rfl

theorem find?_eq {hierarchy : Hierarchy} {root : NodeId}
    (h : Represents arena (BindingTree.build hierarchy root)) (node : NodeId) :
    arena.find? node =
      ((BindingTree.build hierarchy root).find? node).map fun place => place.value.index := by
  let tree := BindingTree.build hierarchy root
  let others := tree.slots.children.places [tree.slots.root]
  have hPlaces : tree.places = ⟨[], tree.slots.root, tree.slots.children⟩ :: others := rfl
  have hIndices : (List.range arena.cells.length).drop 1 =
      others.map fun place => place.value.index := by
    rw [h.cells, List.length_map, ← List.length_map (f := fun place => place.value.index),
      BindingTree.map_index_places, List.length_range, ← BindingTree.map_index_places]
    rfl
  have hTop : tree.slots.root.binding = none := BindingTree.binding_root_build hierarchy root
  rw [find?, hIndices, List.find?_map, BindingTree.find?, hPlaces,
    List.find?_cons_of_neg (by simp [hTop])]
  congr 1
  refine List.find?_congr fun place hPlace => ?_
  have hMem : place ∈ tree.places := List.mem_cons_of_mem _ hPlace
  have hBelow : place.value ∈ tree.slots.children.values := by
    rw [← Forest.map_value_places [tree.slots.root]]
    exact List.mem_map_of_mem hPlace
  have hFirst : (⟨[], tree.slots.root, tree.slots.children⟩ : Place Slot) ∈ tree.places :=
    List.mem_cons_self
  have hIndex : 0 < place.value.index := BindingTree.index_lt_of_mem_below hFirst hBelow
  have hBound := BindingTree.isSome_binding_of_index_ne_zero hMem (Nat.ne_of_gt hIndex)
  have hCell : arena.cell? place.value.index = some (BindingCell.ofPlace place) := by
    rw [h.cell?_eq, BindingTree.getElem?_places hMem, Option.map_some]
  simp only [Function.comp_apply, hCell, Option.any_some, hBound, Bool.true_and]
  rfl

theorem withKind (h : Represents arena tree) (index : Nat) (kind : Kind) :
    Represents (arena.withKind index kind) (tree.withKind index kind) where
  cells := by
    refine List.ext_getElem? fun other => ?_
    rw [BindingArena.withKind, List.getElem?_modify, h.cells, BindingTree.places_withKind,
      List.getElem?_map, List.getElem?_map, List.getElem?_map]
    cases hFound : tree.places[other]? with
    | none => rfl
    | some place =>
      rw [← BindingTree.index_of_getElem?_places hFound]
      exact congrArg some (BindingCell.ofPlace_retype index kind place).symm
  shadowed := h.shadowed.trans (BindingTree.shadowed_withKind tree index kind).symm

end Represents

end BindingArena

end TemplateBinding
