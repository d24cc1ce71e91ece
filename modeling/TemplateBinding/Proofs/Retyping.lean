import Mathlib.Data.List.Forall2
import TemplateBinding.Proofs.TreeBuilding

/-!
# A new kind in the hierarchy and in the tree

The entries of a tree are told apart by their indices, and the entries of nodes by their nodes.
Hence the tree of a hierarchy with a new kind for one node is the old tree with the new kind at the
entry of that node.
-/
namespace TemplateBinding
set_option autoImplicit false

open BindingTree (Slot)

namespace BindingTree

variable {tree : BindingTree} {place other : Place Slot} {slot : Slot} {node : NodeId}
  {index : Nat} {kind : Kind}

/-! ## Indices -/

theorem map_index_slots (tree : BindingTree) :
    (tree.slots.values.map fun slot => slot.index) = List.range tree.size :=
  Tree.map_position_mapPositions _ _ _ fun _ _ => rfl

theorem slot_eq_of_index_eq {first second : Slot} (hFirst : first ∈ tree.slots.values)
    (hSecond : second ∈ tree.slots.values) (h : first.index = second.index) : first = second := by
  have hNodup : (tree.slots.values.map fun slot => slot.index).Nodup := by
    rw [map_index_slots]
    exact List.nodup_range
  exact List.inj_on_of_nodup_map hNodup hFirst hSecond h

theorem map_index_places (tree : BindingTree) :
    (tree.places.map fun place => place.value.index) = List.range tree.size := by
  rw [← map_index_slots, ← Tree.map_value_places, List.map_map]
  rfl

theorem index_of_getElem?_places (h : tree.places[index]? = some place) :
    place.value.index = index := by
  have hIndex : (tree.places.map fun place => place.value.index)[index]? =
      some place.value.index := by
    rw [List.getElem?_map, h, Option.map_some]
  rw [map_index_places] at hIndex
  obtain ⟨_, hSame⟩ := List.getElem?_eq_some_iff.mp hIndex
  rw [← hSame, List.getElem_range]

theorem getElem?_places (hPlace : place ∈ tree.places) :
    tree.places[place.value.index]? = some place := by
  obtain ⟨position, hFound⟩ := List.mem_iff_getElem?.mp hPlace
  rw [index_of_getElem?_places hFound, hFound]

theorem nodup_index_places (tree : BindingTree) :
    (tree.places.map fun place => place.value.index).Nodup := by
  rw [map_index_places]
  exact List.nodup_range

theorem nodup_places (tree : BindingTree) : tree.places.Nodup :=
  (nodup_index_places tree).of_map _

theorem place_eq_of_index_eq (hPlace : place ∈ tree.places) (hOther : other ∈ tree.places)
    (h : place.value.index = other.value.index) : place = other :=
  List.inj_on_of_nodup_map (nodup_index_places tree) hPlace hOther h

theorem pairwise_index_values (hPlace : place ∈ tree.places) :
    (place.values.map fun slot => slot.index).Pairwise (· < ·) := by
  have hSublist := (Tree.values_sublist_of_mem_places hPlace).map fun slot => slot.index
  rw [map_index_slots] at hSublist
  exact List.Pairwise.sublist hSublist List.pairwise_lt_range

theorem index_lt_of_mem_below (hPlace : place ∈ tree.places) (h : slot ∈ place.below.values) :
    place.value.index < slot.index := by
  have hPairwise := pairwise_index_values hPlace
  rw [Place.values, List.map_cons, List.pairwise_cons] at hPairwise
  exact hPairwise.1 _ (List.mem_map_of_mem h)

theorem pairwise_index_below (hPlace : place ∈ tree.places) :
    (place.below.values.map fun slot => slot.index).Pairwise (· < ·) :=
  (List.pairwise_cons.mp (pairwise_index_values hPlace)).2

theorem eq_top_of_index_eq_zero (hPlace : place ∈ tree.places) (h : place.value.index = 0) :
    place = ⟨[], tree.slots.root, tree.slots.children⟩ :=
  place_eq_of_index_eq hPlace List.mem_cons_self h

theorem map_toEntry_slots (tree : BindingTree) : tree.slots.map Slot.toEntry = tree := by
  rw [slots, Tree.map_mapPositions]
  exact Tree.mapPositions_eq_self _ tree fun _ _ => rfl

theorem mem_values_of_mem_slots (h : slot ∈ tree.slots.values) : slot.toEntry ∈ tree.values := by
  have hMem := List.mem_map_of_mem (f := Slot.toEntry) h
  rwa [← Tree.values_map, map_toEntry_slots] at hMem

/-! ## Edited entries -/

/-- An edit of entries leaves the slot where it is. -/
def Slot.lift (edit : Entry → Entry) (slot : Slot) : Slot :=
  { edit slot.toEntry with index := slot.index }

theorem slots_map (edit : Entry → Entry) (tree : BindingTree) :
    slots (tree.map edit) = tree.slots.map (Slot.lift edit) := by
  rw [slots, Tree.mapPositions_map, slots, Tree.map_mapPositions]
  rfl

theorem slots_mapPositions (edit : Nat → Entry → Entry) (tree : BindingTree) :
    slots (tree.mapPositions edit) = tree.slots.map fun slot => slot.lift (edit slot.index) := by
  rw [slots, Tree.mapPositions_mapPositions, slots, Tree.map_mapPositions]
  rfl

def Slot.liftAt (edit : Entry → Entry) (index : Nat) (slot : Slot) : Slot :=
  if slot.index = index then slot.lift edit else slot

theorem Slot.liftAt_of_ne {edit : Entry → Entry} (h : slot.index ≠ index) :
    slot.liftAt edit index = slot := if_neg h

theorem Slot.liftAt_of_eq {edit : Entry → Entry} (h : slot.index = index) :
    slot.liftAt edit index = slot.lift edit := if_pos h

theorem slots_modify (edit : Entry → Entry) (index : Nat) (tree : BindingTree) :
    slots (tree.modify edit index) = tree.slots.map (Slot.liftAt edit index) := by
  rw [Tree.modify_eq_mapPositions, slots_mapPositions]
  congr 1
  funext slot
  by_cases h : slot.index = index
  · simp only [if_pos h, Slot.liftAt_of_eq h]
  · simp only [if_neg h, Slot.liftAt_of_ne h]
    rfl

theorem places_modify (edit : Entry → Entry) (index : Nat) (tree : BindingTree) :
    places (tree.modify edit index) = tree.places.map (Place.map (Slot.liftAt edit index)) := by
  rw [places, slots_modify, Tree.places_map, places]

/-! ## A new kind in a tree -/

def Slot.withKind (kind : Kind) (slot : Slot) : Slot :=
  { slot.toEntry.withKind kind with index := slot.index }

theorem Slot.kind?_withKind (h : slot.binding.isSome) : (slot.withKind kind).kind? = some kind := by
  obtain ⟨binding, hBinding⟩ := Option.isSome_iff_exists.mp h
  rw [Slot.withKind, Entry.kind?, Entry.withKind, hBinding]
  rfl

def Slot.retype (index : Nat) (kind : Kind) (slot : Slot) : Slot :=
  if slot.index = index then slot.withKind kind else slot

theorem Slot.retype_of_ne (h : slot.index ≠ index) : slot.retype index kind = slot := if_neg h

theorem Slot.retype_of_eq (h : slot.index = index) :
    slot.retype index kind = slot.withKind kind := if_pos h

@[simp] theorem Slot.index_retype (index : Nat) (kind : Kind) (slot : Slot) :
    (slot.retype index kind).index = slot.index := by
  rw [retype]
  split <;> rfl

theorem Slot.node_retype (index : Nat) (kind : Kind) (slot : Slot) :
    (slot.retype index kind).node = slot.node := by
  rw [retype]
  split <;> rfl

theorem Slot.isSome_binding_retype (index : Nat) (kind : Kind) (slot : Slot) :
    (slot.retype index kind).binding.isSome = slot.binding.isSome := by
  rw [retype]
  split
  · exact Option.isSome_map
  · rfl

theorem slots_withKind (tree : BindingTree) (index : Nat) (kind : Kind) :
    (tree.withKind index kind).slots = tree.slots.map (Slot.retype index kind) :=
  slots_modify (Entry.withKind kind) index tree

theorem places_withKind (tree : BindingTree) (index : Nat) (kind : Kind) :
    (tree.withKind index kind).places = tree.places.map (Place.map (Slot.retype index kind)) :=
  places_modify (Entry.withKind kind) index tree

theorem templateName_withKind (tree : BindingTree) (index : Nat) (kind : Kind) :
    (tree.withKind index kind).templateName = tree.templateName := by
  cases index <;> rfl

/-! ## The entry of a node -/

theorem find?_eq_some (h : tree.find? node = some place) :
    place ∈ tree.places ∧ place.value.binding.isSome ∧ place.value.node = node := by
  have hFound := List.find?_some h
  rw [Bool.and_eq_true, beq_iff_eq] at hFound
  exact ⟨List.mem_of_find?_eq_some h, hFound⟩

theorem find?_withKind (tree : BindingTree) (index : Nat) (kind : Kind) (node : NodeId) :
    (tree.withKind index kind).find? node =
      (tree.find? node).map (Place.map (Slot.retype index kind)) := by
  rw [find?, find?, places_withKind, List.find?_map]
  congr 2
  funext place
  exact congrArg₂ (fun bound other => bound && other == node)
    (Slot.isSome_binding_retype index kind place.value) (Slot.node_retype index kind place.value)

variable {hierarchy : Hierarchy} {root : NodeId}

theorem slot_eq_of_node_eq {first second : Slot}
    (hFirst : first ∈ (build hierarchy root).slots.values)
    (hSecond : second ∈ (build hierarchy root).slots.values) (hFirstBound : first.binding.isSome)
    (hSecondBound : second.binding.isSome) (h : first.node = second.node) : first = second := by
  have hNodup : ((build hierarchy root).slots.children.values.map fun slot => slot.node).Nodup := by
    have hChildren : (build hierarchy root).slots.children.map Slot.toEntry =
        (build hierarchy root).children := congrArg Tree.children (map_toEntry_slots _)
    have hNodes := nodup_nodes_build hierarchy root
    rwa [← hChildren, Forest.values_map, List.map_map] at hNodes
  have hBelow {slot : Slot} (hSlot : slot ∈ (build hierarchy root).slots.values)
      (hBound : slot.binding.isSome) : slot ∈ (build hierarchy root).slots.children.values := by
    rcases List.mem_cons.mp hSlot with rfl | hSlot
    · have hRoot : (build hierarchy root).slots.root.binding = none :=
        binding_root_build hierarchy root
      rw [hRoot] at hBound
      cases hBound
    · exact hSlot
  exact List.inj_on_of_nodup_map hNodup (hBelow hFirst hFirstBound) (hBelow hSecond hSecondBound) h

theorem eq_of_find?_eq_some (h : (build hierarchy root).find? node = some place)
    (hOther : other ∈ (build hierarchy root).places) (hBound : other.value.binding.isSome)
    (hNode : other.value.node = node) : other = place := by
  obtain ⟨hPlace, hPlaceBound, hSame⟩ := find?_eq_some h
  have hSlot := slot_eq_of_node_eq (Tree.mem_values_of_mem_places hOther)
    (Tree.mem_values_of_mem_places hPlace) hBound hPlaceBound (hNode.trans hSame.symm)
  exact place_eq_of_index_eq hOther hPlace (congrArg Slot.index hSlot)

theorem find?_of_mem_places (hPlace : place ∈ (build hierarchy root).places)
    (hBound : place.value.binding.isSome) :
    (build hierarchy root).find? place.value.node = some place := by
  cases hFind : (build hierarchy root).find? place.value.node with
  | none =>
    have hNone := List.find?_eq_none.mp hFind place hPlace
    rw [hBound, Bool.true_and, beq_self_eq_true] at hNone
    exact absurd rfl hNone
  | some other => rw [eq_of_find?_eq_some hFind hPlace hBound rfl]

theorem withKind_eq_map (h : (build hierarchy root).find? node = some place) :
    (build hierarchy root).withKind place.value.index kind =
      (build hierarchy root).map (Entry.retype node kind) := by
  obtain ⟨hPlace, hBound, hNode⟩ := find?_eq_some h
  have hValue := Tree.mem_values_of_mem_places hPlace
  have hMap : (build hierarchy root).map (Entry.retype node kind) =
      (build hierarchy root).slots.map fun slot => slot.toEntry.retype node kind := by
    rw [← Tree.map_map Slot.toEntry, map_toEntry_slots]
  have hWithKind : (build hierarchy root).withKind place.value.index kind =
      (build hierarchy root).slots.map fun slot => (slot.retype place.value.index kind).toEntry := by
    rw [← map_toEntry_slots ((build hierarchy root).withKind place.value.index kind),
      slots_withKind, Tree.map_map]
  rw [hMap, hWithKind]
  refine Tree.map_congr _ _ _ fun slot hSlot => ?_
  by_cases hIndex : slot.index = place.value.index
  · rw [Slot.retype_of_eq hIndex, slot_eq_of_index_eq hSlot hValue hIndex, Entry.retype,
      if_pos hNode]
    rfl
  · rw [Slot.retype_of_ne hIndex]
    cases hBinding : slot.binding with
    | none => exact (Entry.retype_of_binding_eq_none hBinding).symm
    | some binding =>
      have hOther : slot.node ≠ node := by
        intro hSame
        refine hIndex (congrArg Slot.index ?_)
        exact slot_eq_of_node_eq hSlot hValue (by rw [hBinding]; rfl) hBound (hSame.trans hNode.symm)
      exact (if_neg hOther).symm

theorem binding_eq_of_mem_values {top : Place Node} (hTop : hierarchy.place? root = some top)
    (hSlot : slot ∈ (build hierarchy root).slots.values) (hBound : slot.binding.isSome)
    {origin : Node} (hOrigin : origin ∈ top.values) (h : origin.id = slot.node) :
    origin.binding = slot.binding := by
  have hEntry := mem_values_of_mem_slots hSlot
  have hBuild : build hierarchy root = ofPlace top := by rw [build, hTop]
  rcases List.mem_cons.mp hEntry with hRoot | hEntry
  · have hNone : slot.binding = none := hRoot ▸ binding_root_build hierarchy root
    rw [hNone] at hBound
    cases hBound
  · rw [hBuild] at hEntry
    obtain ⟨_, found, hFound, hId, hBinding⟩ := exists_node_of_mem_ofPlace hEntry
    have hSame : origin = found := List.inj_on_of_nodup_map (Hierarchy.nodup_ids_of_place? hTop)
      hOrigin hFound (h.trans hId.symm)
    rw [hSame, hBinding]

theorem binding_of_find? (h : (build hierarchy root).find? node = some place) :
    hierarchy.binding node = place.value.binding := by
  obtain ⟨hPlace, hBound, hNode⟩ := find?_eq_some h
  have hEntry := mem_values_of_mem_slots (Tree.mem_values_of_mem_places hPlace)
  cases hTop : hierarchy.place? root with
  | none =>
    rw [build, hTop] at h
    cases h
  | some top =>
    have hBuild : build hierarchy root = ofPlace top := by rw [build, hTop]
    rcases List.mem_cons.mp hEntry with hRoot | hEntry
    · have hNone : place.value.binding = none := hRoot ▸ binding_root_build hierarchy root
      rw [hNone] at hBound
      cases hBound
    · rw [hBuild] at hEntry
      obtain ⟨_, origin, hOrigin, hId, hBinding⟩ := exists_node_of_mem_ofPlace hEntry
      have hIn := (Tree.values_sublist_of_mem_places (Hierarchy.mem_places_of_place? hTop)).subset
        hOrigin
      obtain ⟨found, hFound, hSame⟩ := Hierarchy.exists_place?_of_mem_nodes hIn
      rw [hId.trans hNode] at hFound
      rw [Hierarchy.binding, hFound, Option.bind_some, hSame, hBinding]

/-- Building follows a new kind, as long as nothing becomes a boundary or was one. -/
theorem follows_withKind {origin : Node}
    (hSource : origin.id = node → ∀ binding, origin.binding = some binding → binding.kind ≠ .leaf)
    (hTarget : kind ≠ .leaf) :
    Follows (Node.editAt node (Record.withKind kind)) (Entry.retype node kind) origin := by
  by_cases hId : origin.id = node
  · have hEdit : origin.editAt node (Record.withKind kind) =
      { origin.toRecord.withKind kind with id := origin.id } := if_pos hId
    refine ⟨by rw [hEdit], by rw [hEdit]; rfl, by rw [hEdit]; rfl, ?_, ?_, ?_⟩
    · rw [hEdit, Record.withKind, Option.isSome_map]
    · intro old new hOld hNew
      rw [hEdit, Record.withKind, hOld] at hNew
      rw [← Option.some.inj hNew]
      exact iff_of_false hTarget (hSource hId old hOld)
    · intro old new path hidden hOld hNew
      rw [hEdit, Record.withKind, hOld] at hNew
      rw [hEdit, ← Option.some.inj hNew]
      exact (if_pos hId).symm
  · have hSame := Node.editAt_of_ne (Record.withKind kind) hId
    apply Follows.of_unseen (by rw [hSame]) (by rw [hSame]) (by rw [hSame]) (by rw [hSame])
    intro entry hEntry
    exact if_neg (hEntry ▸ hId)

/-- The tree of the hierarchy with a new kind is the tree with the new kind. -/
theorem build_withKind (h : (build hierarchy root).find? node = some place)
    (hSource : place.value.kind? ≠ some .leaf) (hTarget : kind ≠ .leaf) :
    build (hierarchy.withKind node kind) root =
      (build hierarchy root).withKind place.value.index kind := by
  obtain ⟨hPlace, hBound, hNode⟩ := find?_eq_some h
  have hPlaces := Hierarchy.place?_modify hierarchy node root (Record.withKind kind)
  rw [withKind_eq_map h, build, build, Hierarchy.withKind, hPlaces]
  cases hTop : hierarchy.place? root with
  | none =>
    refine (Tree.map_id_of_forall _ _ fun entry hEntry => ?_).symm
    rw [List.mem_singleton.mp hEntry]
    exact Entry.retype_of_binding_eq_none rfl
  | some top =>
    apply ofPlace_map top
    · intro origin hOrigin
      apply follows_withKind _ hTarget
      intro hId binding hBinding hLeaf
      have hSame := binding_eq_of_mem_values hTop (Tree.mem_values_of_mem_places hPlace) hBound
        hOrigin (hId.trans hNode.symm)
      rw [Entry.kind?, ← hSame, hBinding, Option.map_some, hLeaf] at hSource
      exact hSource rfl
    · exact fun entry hEntry => Entry.retype_of_binding_eq_none hEntry

/-! ## Entry by entry -/

theorem Slot.hidden_retype (index : Nat) (kind : Kind) (slot : Slot) :
    (slot.retype index kind).hidden = slot.hidden := by
  rw [retype]
  split <;> rfl

theorem shadowed_withKind (tree : BindingTree) (index : Nat) (kind : Kind) :
    (tree.withKind index kind).shadowed = tree.shadowed := by
  rw [shadowed, shadowed, slots_withKind, Tree.values_map, List.flatMap_map]
  congr 1
  funext slot
  rw [Slot.hidden_retype, Slot.index_retype]

/-- Two entries at the same position that differ at most in the kind, and this only at one position. -/
structure SameButKind (position : Nat) (kind : Kind) (old new : Place Slot) : Prop where
  index : new.value.index = old.value.index
  node : new.value.node = old.value.node
  label : new.value.label = old.value.label
  binding : new.value.binding =
    if old.value.index = position then old.value.binding.map fun binding => { binding with kind }
    else old.value.binding
  capabilities : new.value.capabilities = old.value.capabilities
  path : new.value.path = old.value.path
  hidden : new.value.hidden = old.value.hidden
  findings : new.value.findings = old.value.findings
  parent : new.parent? = old.parent?
  children : new.children = old.children
  ancestors : new.ancestors = old.ancestors
  depth : new.depth = old.depth

theorem sameButKind_map_retype (index : Nat) (kind : Kind) (place : Place Slot) :
    SameButKind index kind place (place.map (Slot.retype index kind)) := by
  have hValue : place.value.retype index kind =
      { place.value with
        binding :=
          if place.value.index = index then
            place.value.binding.map fun binding => { binding with kind }
          else place.value.binding } := by
    rw [Slot.retype]
    split
    · rfl
    · rfl
  have hAbove : (place.above.map (Slot.retype index kind)).map Slot.index =
      place.above.map Slot.index := by
    rw [List.map_map]
    exact List.map_congr_left fun slot _ => Slot.index_retype index kind slot
  have hBelow : (place.below.map (Slot.retype index kind)).roots.map Slot.index =
      place.below.roots.map Slot.index := by
    rw [Forest.roots_map, List.map_map]
    exact List.map_congr_left fun slot _ => Slot.index_retype index kind slot
  have hParent : (place.above.map (Slot.retype index kind)).head?.map Slot.index =
      place.above.head?.map Slot.index := by
    rw [← List.head?_map, hAbove, List.head?_map]
  constructor
  case parent => exact hParent
  case children => exact hBelow
  case ancestors => exact hAbove
  case depth => exact List.length_map _
  all_goals rw [Place.map, hValue]

/-- Building again after the kind of a node was written changes the kind of its entry and nothing
else. -/
theorem build_setKind {after : Hierarchy} (h : (build hierarchy root).find? node = some place)
    (hSource : place.value.kind? ≠ some .leaf) (hTarget : kind ≠ .leaf)
    (hWritten : hierarchy.setKind node kind = .ok after) :
    build after root = (build hierarchy root).withKind place.value.index kind ∧
      List.Forall₂ (SameButKind place.value.index kind) (build hierarchy root).places
        (build after root).places ∧
      (build after root).shadowed = (build hierarchy root).shadowed := by
  obtain ⟨_, rfl⟩ := Hierarchy.setKind_eq_ok_iff.mp hWritten
  have hTree := build_withKind h hSource hTarget
  refine ⟨hTree, ?_, ?_⟩
  · rw [hTree, places_withKind, List.forall₂_map_right_iff, List.forall₂_same]
    intro place _
    exact sameButKind_map_retype _ kind place
  · rw [hTree, shadowed_withKind]

/-- The template itself is annotated, a plain node stands between entries, and a leaf hides one. -/
def annotatedMenu : Hierarchy where
  document := ⟨{ label := "Menu", binding := some ⟨.element, "Menu", "MenuView", none⟩ }, .ofTrees [
    ⟨{ label := "Box" }, .ofTrees [
      ⟨{ label := "Row", binding := some ⟨.member, "Row", "Text", none⟩ }, .ofTrees [
        ⟨{ label := "Deco", binding := some ⟨.leaf, "", "", none⟩ }, .ofTrees [
          ⟨{ label := "Shade", binding := some ⟨.member, "Shade", "Image", none⟩ }, .nil⟩]⟩]⟩]⟩]⟩

theorem build_setKind_annotatedMenu :
    ∃ place after, (build annotatedMenu 0).find? 0 = some place ∧ place.value.index = 1 ∧
      place.value.kind? = some .element ∧ annotatedMenu.setKind 0 .component = .ok after ∧
      build after 0 = (build annotatedMenu 0).withKind 1 .component ∧
      List.Forall₂ (SameButKind 1 .component) (build annotatedMenu 0).places
        (build after 0).places ∧
      (build after 0).shadowed = [(3, ⟨4, ["Menu", "Box", "Row", "Deco", "Shade"]⟩)] := by
  obtain ⟨place, hFound, hIndex, hKind⟩ : ∃ place, (build annotatedMenu 0).find? 0 = some place ∧
      place.value.index = 1 ∧ place.value.kind? = some .element := ⟨_, rfl, rfl, rfl⟩
  obtain ⟨after, hWritten⟩ : ∃ after, annotatedMenu.setKind 0 .component = .ok after := ⟨_, rfl⟩
  have hSource : place.value.kind? ≠ some .leaf := by
    rw [hKind]
    decide
  have hHidden : (build annotatedMenu 0).shadowed =
      [(3, ⟨4, ["Menu", "Box", "Row", "Deco", "Shade"]⟩)] := by decide
  obtain ⟨hTree, hEntries, hShadowed⟩ := build_setKind hFound hSource (by decide) hWritten
  rw [hIndex] at hTree hEntries
  exact ⟨place, after, hFound, hIndex, hKind, hWritten, hTree, hEntries, hShadowed.trans hHidden⟩

end BindingTree

end TemplateBinding
