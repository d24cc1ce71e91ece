import Mathlib.Data.List.Forall2
import TemplateBinding.Proofs.Scoping
import TemplateBinding.Proofs.Subtree

/-!
# The tree as a projection of the hierarchy

The entries of a tree stand for the annotated nodes that no leaf hides, in pre-order, and the hidden
nodes are recorded with their leaves.  The entries above an entry are those of the annotated nodes
above its node, followed by the entry for the template.
-/
namespace TemplateBinding
set_option autoImplicit false

open BindingTree (Slot)

namespace BindingTree

/-! ## Entries and their places -/

def hiddenOf (place : Place Node) : Hidden := ⟨place.value.id, Hierarchy.labels place⟩

/-- The labels on the way down to a place whose ancestors are given. -/
def pathTo (above : List Node) : List String := above.reverse.map fun node => node.label

theorem pathTo_cons (node : Node) (above : List Node) :
    pathTo (node :: above) = pathTo above ++ [node.label] := by
  rw [pathTo, List.reverse_cons, List.map_append]
  rfl

/-- The annotated nodes among those above a place, as the tree shows them: with the entry for the
template at the end. -/
def shownAbove (root : NodeId) (above : List Node) : List (NodeId × Option Binding) :=
  (above.filter Node.isBound).map (fun node => (node.id, node.binding)) ++ [(root, none)]

/-- The place of an entry agrees with the place of its node. -/
structure Represents (root : NodeId) (place : Place Node) (entry : Place Entry) : Prop where
  node : entry.value.node = place.value.id
  label : entry.value.label = place.value.label
  binding : entry.value.binding = place.value.binding
  capabilities : entry.value.capabilities = place.value.capabilities
  path : entry.value.path = Hierarchy.labels place
  above : entry.above.map (fun entry => (entry.node, entry.binding)) =
    shownAbove root place.above

theorem hiddenIn_eq (above : List Node) (forest : Forest Node) :
    hiddenIn (pathTo above) forest =
      ((forest.places above).filter fun place => place.value.isBound).map hiddenOf := by
  induction forest generalizing above with
  | nil => rfl
  | cons node below rest hBelow hRest =>
    rw [hiddenIn, ← pathTo_cons, hBelow, hRest, Forest.places, List.filter_cons, List.filter_append]
    cases hBound : node.binding.isSome with
    | true => simp [Node.isBound, hBound, hiddenOf, Hierarchy.labels, pathTo]
    | false => simp [Node.isBound, hBound]

/-! ## Below a leaf and elsewhere -/

/-- Nothing above hides what comes below; the topmost node never does. -/
structure Open (above : List Node) : Prop where
  nonempty : above ≠ []
  between : above.dropLast.any Node.isLeaf = false

variable {above : List Node} {node : Node} {below rest : Forest Node}

theorem open_singleton (top : Node) : Open [top] := ⟨by simp, rfl⟩

theorem Open.cons (h : Open above) (hNode : node.isLeaf = false) : Open (node :: above) where
  nonempty := by simp
  between := by
    rw [List.dropLast_cons_of_ne_nil h.nonempty, List.any_cons, hNode, h.between, Bool.or_false]

theorem Open.isHidden_eq_false (h : Open above) (node : Node) (below : Forest Node) :
    Place.isHidden ⟨above, node, below⟩ = false := h.between

theorem Open.isHidden_of_leaf (h : Open above) (hNode : node.isLeaf = true) {place : Place Node}
    (hPlace : place ∈ below.places (node :: above)) : place.isHidden = true := by
  rw [← List.nil_append (node :: above), Forest.places_append] at hPlace
  obtain ⟨inner, _, rfl⟩ := List.mem_map.mp hPlace
  rw [Place.isHidden, Place.between, Place.under, List.dropLast_append_of_ne_nil (by simp),
    List.dropLast_cons_of_ne_nil h.nonempty, List.any_append, List.any_cons, hNode, Bool.true_or,
    Bool.or_true]

theorem Open.filter_isShadowed_cons (h : Open above) :
    ((Forest.cons node below rest).places above).filter Place.isShadowed =
      (below.places (node :: above)).filter Place.isShadowed ++
        (rest.places above).filter Place.isShadowed := by
  have hTop : Place.isShadowed ⟨above, node, below⟩ = false := by
    rw [Place.isShadowed, h.isHidden_eq_false, Bool.and_false]
  rw [Forest.places, List.filter_cons_of_neg (by simp [hTop]), List.filter_append]

theorem Open.filter_isShown_cons (h : Open above) :
    ((Forest.cons node below rest).places above).filter Place.isShown =
      (if node.isBound then [⟨above, node, below⟩] else []) ++
        ((below.places (node :: above)).filter Place.isShown ++
          (rest.places above).filter Place.isShown) := by
  have hTop : Place.isShown ⟨above, node, below⟩ = node.isBound := by
    rw [Place.isShown, h.isHidden_eq_false, Bool.not_false, Bool.and_true]
  rw [Forest.places, List.filter_cons, List.filter_append, hTop]
  split <;> rfl

theorem Open.filter_isShadowed_of_leaf (h : Open above) (hNode : node.isLeaf = true) :
    (below.places (node :: above)).filter Place.isShadowed =
      (below.places (node :: above)).filter fun place => place.value.isBound := by
  refine List.filter_congr fun place hPlace => ?_
  rw [Place.isShadowed, h.isHidden_of_leaf hNode hPlace, Bool.and_true]

theorem Open.filter_isShown_of_leaf (h : Open above) (hNode : node.isLeaf = true) :
    (below.places (node :: above)).filter Place.isShown = [] := by
  refine List.filter_eq_nil_iff.mpr fun place hPlace => ?_
  rw [Place.isShown, h.isHidden_of_leaf hNode hPlace]
  simp

/-! ## The entries of a forest -/

theorem hidden_contract (forest : Forest Node) (h : Open above) :
    (contract (pathTo above) forest).values.flatMap Entry.hidden =
      ((forest.places above).filter Place.isShadowed).map hiddenOf := by
  induction forest generalizing above with
  | nil => rfl
  | cons node below rest hBelow hRest =>
    rw [h.filter_isShadowed_cons, List.map_append, ← hRest h, contract, ← pathTo_cons]
    cases hBinding : node.binding with
    | none =>
      have hNode := Node.isLeaf_of_binding_eq_none hBinding
      rw [← hBelow (h.cons hNode), Forest.values_append, List.flatMap_append]
    | some binding =>
      have hNode := Node.isLeaf_of_binding hBinding
      dsimp only
      split
      · rename_i hKind
        rw [h.filter_isShadowed_of_leaf (by simp [hNode, hKind]), ← hiddenIn_eq]
        rfl
      · rename_i hKind
        rw [← hBelow (h.cons (by simp [hNode, hKind])), ← List.flatMap_append]
        rfl

theorem represents_contract (root : NodeId) {forest : Forest Node} (entries : List Entry)
    (h : Open above)
    (hEntries : entries.map (fun entry => (entry.node, entry.binding)) = shownAbove root above) :
    List.Forall₂ (Represents root) ((forest.places above).filter Place.isShown)
      ((contract (pathTo above) forest).places entries) := by
  -- An unannotated node changes neither the entries above nor the nodes that they stand for.
  induction forest generalizing above entries with
  | nil => exact .nil
  | cons node below rest hBelow hRest =>
    have hRest := hRest entries h hEntries
    rw [h.filter_isShown_cons, contract, ← pathTo_cons]
    cases hBinding : node.binding with
    | none =>
      have hUnbound := Node.isBound_of_binding_eq_none hBinding
      have hSame : entries.map (fun entry => (entry.node, entry.binding)) =
          shownAbove root (node :: above) := by
        rw [hEntries, shownAbove, shownAbove, List.filter_cons_of_neg (by simp [hUnbound])]
      have hBelow := hBelow entries (h.cons (Node.isLeaf_of_binding_eq_none hBinding)) hSame
      rw [if_neg (by simp [hUnbound]), Forest.places_concat]
      exact List.rel_append hBelow hRest
    | some binding =>
      have hBound := Node.isBound_of_binding hBinding
      have hNode := Node.isLeaf_of_binding hBinding
      have hTop (hidden : List Hidden) (below' : Forest Entry) :
          Represents root ⟨above, node, below⟩
            ⟨entries, { entryOf (pathTo (node :: above)) node binding with hidden }, below'⟩ :=
        ⟨rfl, rfl, hBinding.symm, rfl, rfl, hEntries⟩
      rw [if_pos hBound]
      dsimp only
      split
      · rename_i hKind
        rw [h.filter_isShown_of_leaf (by simp [hNode, hKind])]
        exact .cons (hTop _ _) hRest
      · rename_i hKind
        have hSame : (entryOf (pathTo (node :: above)) node binding :: entries).map
            (fun entry => (entry.node, entry.binding)) = shownAbove root (node :: above) := by
          rw [List.map_cons, hEntries, shownAbove, shownAbove, List.filter_cons_of_pos hBound,
            List.map_cons, hBinding]
          rfl
        have hBelow := hBelow _ (h.cons (by simp [hNode, hKind])) hSame
        exact .cons (hTop [] _) (List.rel_append hBelow hRest)

/-! ## The tree of a subtree -/

variable {hierarchy : Hierarchy} {root : NodeId} {place other : Place Slot}

theorem represents_build (hierarchy : Hierarchy) (root : NodeId) :
    List.Forall₂ (Represents root) ((hierarchy.subtree root).filter Place.isShown)
      ((build hierarchy root).children.places [(build hierarchy root).root]) := by
  cases hTop : hierarchy.place? root with
  | none =>
    rw [build, hTop, Hierarchy.subtree, hTop]
    exact .nil
  | some top =>
    have hId := Hierarchy.id_of_place? hTop
    have hShown : Place.isShown ⟨[], top.value, top.below⟩ = top.value.isBound := by
      simp [Place.isShown, Place.isHidden, Place.between]
    rw [build, hTop, Hierarchy.subtree_eq_places hTop, List.filter_cons, hShown]
    dsimp only [ofPlace]
    cases hBinding : top.value.binding with
    | none =>
      have hUnbound := Node.isBound_of_binding_eq_none hBinding
      rw [if_neg (by simp [hUnbound])]
      refine represents_contract root _ (open_singleton top.value) ?_
      rw [shownAbove, List.filter_cons_of_neg (by simp [hUnbound]), ← hId]
      rfl
    | some binding =>
      have hBound := Node.isBound_of_binding hBinding
      rw [if_pos hBound, Forest.places, Forest.places, List.append_nil]
      refine .cons ⟨rfl, rfl, hBinding.symm, rfl, rfl, by rw [← hId]; rfl⟩ ?_
      refine represents_contract root _ (open_singleton top.value) ?_
      rw [shownAbove, List.filter_cons_of_pos hBound, ← hId]
      simp [entryOf, hBinding]

theorem hidden_build (hierarchy : Hierarchy) (root : NodeId) :
    (build hierarchy root).values.flatMap Entry.hidden =
      ((hierarchy.subtree root).filter Place.isShadowed).map hiddenOf := by
  cases hTop : hierarchy.place? root with
  | none =>
    rw [build, hTop, Hierarchy.subtree, hTop]
    rfl
  | some top =>
    have hShadowed : Place.isShadowed ⟨[], top.value, top.below⟩ = false := by
      simp [Place.isShadowed, Place.isHidden, Place.between]
    have hBelow := hidden_contract top.below (open_singleton top.value)
    rw [build, hTop, Hierarchy.subtree_eq_places hTop,
      List.filter_cons_of_neg (by simp [hShadowed]), ← hBelow]
    dsimp only [ofPlace]
    cases top.value.binding with
    | none => rfl
    | some binding =>
      rw [Tree.values, Forest.values, Forest.values, List.append_nil]
      rfl

theorem map_hidden_shadowed (hierarchy : Hierarchy) (root : NodeId) :
    (build hierarchy root).shadowed.map (fun (_, hidden) => hidden) =
      ((hierarchy.subtree root).filter Place.isShadowed).map hiddenOf := by
  have hValues : (build hierarchy root).slots.values.map Slot.toEntry =
      (build hierarchy root).values := by rw [← Tree.values_map, map_toEntry_slots]
  rw [← hidden_build, ← hValues, shadowed, List.map_flatMap, List.flatMap_map]
  refine List.flatMap_congr fun slot _ => ?_
  rw [List.map_map]
  exact List.map_id' _

/-- The template's own entry is not among these. -/
def entryNodes (tree : BindingTree) : List NodeId :=
  tree.children.values.map fun entry => entry.node

def hiddenNodes (tree : BindingTree) : List NodeId :=
  tree.shadowed.map fun (_, hidden) => hidden.node

theorem entryNodes_build (hierarchy : Hierarchy) (root : NodeId) :
    (build hierarchy root).entryNodes =
      ((hierarchy.subtree root).filter Place.isShown).map fun place => place.value.id := by
  rw [entryNodes, ← Forest.map_value_places [(build hierarchy root).root], List.map_map,
    ← List.forall₂_eq_eq_eq, List.forall₂_map_left_iff, List.forall₂_map_right_iff]
  exact (represents_build hierarchy root).flip.imp fun _ _ h => h.node

theorem hiddenNodes_build (hierarchy : Hierarchy) (root : NodeId) :
    (build hierarchy root).hiddenNodes =
      ((hierarchy.subtree root).filter Place.isShadowed).map fun place => place.value.id := by
  have hHidden := congrArg (List.map Hidden.node) (map_hidden_shadowed hierarchy root)
  rwa [List.map_map, List.map_map] at hHidden

theorem entryNodes_append_hiddenNodes_perm (hierarchy : Hierarchy) (root : NodeId) :
    ((build hierarchy root).entryNodes ++ (build hierarchy root).hiddenNodes).Perm
      (((hierarchy.subtree root).filter fun place => place.value.isBound).map
        fun place => place.value.id) := by
  have hPerm := List.filter_append_perm (fun place : Place Node => !place.isHidden)
    ((hierarchy.subtree root).filter fun place => place.value.isBound)
  simp only [List.filter_filter, Bool.not_not] at hPerm
  rw [entryNodes_build, hiddenNodes_build, ← List.map_append]
  refine .map _ (.trans (.of_eq ?_) hPerm)
  congr 1 <;> exact List.filter_congr fun place _ => Bool.and_comm _ _

/-! ## Entries and their nodes -/

theorem exists_of_forall₂ {α β : Type} {R : α → β → Prop} {first : List α} {second : List β}
    (h : List.Forall₂ R first second) {b : β} (hMem : b ∈ second) : ∃ a ∈ first, R a b := by
  induction h with
  | nil => cases hMem
  | @cons a b first second hHead _ ih =>
    rcases List.mem_cons.mp hMem with rfl | hMem
    · exact ⟨a, List.mem_cons_self, hHead⟩
    · obtain ⟨other, hOther, hRel⟩ := ih hMem
      exact ⟨other, List.mem_cons_of_mem _ hOther, hRel⟩

theorem exists_origin (hPlace : place ∈ (build hierarchy root).places)
    (hIndex : place.value.index ≠ 0) :
    ∃ origin ∈ (hierarchy.subtree root).filter Place.isShown,
      Represents root origin (place.map Slot.toEntry) := by
  refine exists_of_forall₂ (represents_build hierarchy root) ?_
  have hChildren : (build hierarchy root).slots.children.map Slot.toEntry =
      (build hierarchy root).children := congrArg Tree.children (map_toEntry_slots _)
  have hRoot : Slot.toEntry (build hierarchy root).slots.root = (build hierarchy root).root := rfl
  rcases List.mem_cons.mp hPlace with rfl | hPlace
  · exact absurd rfl hIndex
  · have hMap := Forest.places_map Slot.toEntry [(build hierarchy root).slots.root]
      (build hierarchy root).slots.children
    rw [hChildren, List.map_singleton, hRoot] at hMap
    rw [hMap]
    exact List.mem_map_of_mem hPlace

theorem isSome_binding_of_index_ne_zero (hPlace : place ∈ (build hierarchy root).places)
    (hIndex : place.value.index ≠ 0) : place.value.binding.isSome := by
  obtain ⟨origin, hOrigin, hRepresents⟩ := exists_origin hPlace hIndex
  have hShown := (List.mem_filter.mp hOrigin).2
  rw [Place.isShown, Bool.and_eq_true] at hShown
  have hBinding : place.value.binding = origin.value.binding := hRepresents.binding
  rw [hBinding]
  exact hShown.1

theorem index_eq_zero_iff (hPlace : place ∈ (build hierarchy root).places) :
    place.value.index = 0 ↔ place.value.binding = none := by
  constructor
  · intro hIndex
    rw [eq_top_of_index_eq_zero hPlace hIndex]
    exact binding_root_build hierarchy root
  · intro hNone
    by_contra hIndex
    have hSome := isSome_binding_of_index_ne_zero hPlace hIndex
    rw [hNone] at hSome
    cases hSome

/-! ## Indices -/

theorem pairwise_children {tree : BindingTree} (hPlace : place ∈ tree.places) :
    place.children.Pairwise (· < ·) :=
  (pairwise_index_below hPlace).sublist (place.below.roots_sublist_values.map _)

theorem mem_children_iff {tree : BindingTree} (hPlace : place ∈ tree.places) {index : Nat} :
    index ∈ place.children ↔ ∃ child ∈ tree.places,
      child.value.index = index ∧ child.parent? = some place.value.index := by
  constructor
  · intro h
    obtain ⟨slot, hSlot, rfl⟩ := List.mem_map.mp h
    obtain ⟨child, hChild, hAbove, rfl⟩ := Tree.exists_place_of_mem_roots hPlace hSlot
    exact ⟨child, hChild, rfl, by rw [Place.parent?, hAbove]; rfl⟩
  · rintro ⟨child, hChild, rfl, hParent⟩
    rcases Tree.place_cases hChild with rfl | ⟨parent, hParentPlace, hAbove, hRoot⟩
    · cases hParent
    · rw [Place.parent?, hAbove, List.head?_cons, Option.map_some, Option.some_inj] at hParent
      rw [← place_eq_of_index_eq hParentPlace hPlace hParent]
      exact List.mem_map_of_mem hRoot

/-! ## The projection -/

/-- The entry at a place stands for a node, and hangs under the entry of the nearest annotated node
above it, or under the entry for the template. -/
structure HangsUnder (origin : Place Node) (place parent : Place Slot) : Prop where
  node : place.value.node = origin.value.id
  label : place.value.label = origin.value.label
  binding : place.value.binding = origin.value.binding
  capabilities : place.value.capabilities = origin.value.capabilities
  path : place.value.path = Hierarchy.labels origin
  link : place.parent? = some parent.value.index
  before : parent.value.index < place.value.index
  depth : place.depth = parent.depth + 1
  nearest : match origin.above.find? Node.isBound with
    | some above => parent.value.node = above.id ∧ parent.value.binding = above.binding
    | none => parent.value.index = 0

theorem exists_hangsUnder (hPlace : place ∈ (build hierarchy root).places)
    (hIndex : place.value.index ≠ 0) :
    ∃ origin ∈ hierarchy.subtree root, ∃ parent ∈ (build hierarchy root).places,
      HangsUnder origin place parent := by
  obtain ⟨origin, hOrigin, hRepresents⟩ := exists_origin hPlace hIndex
  rcases Tree.place_cases hPlace with rfl | ⟨parent, hParent, hAbove, hRoot⟩
  · exact absurd rfl hIndex
  · refine ⟨origin, (List.mem_filter.mp hOrigin).1, parent, hParent, ?_⟩
    have hEntries := hRepresents.above
    rw [Place.map, hAbove, shownAbove, List.map_cons, List.map_cons] at hEntries
    refine ⟨hRepresents.node, hRepresents.label, hRepresents.binding, hRepresents.capabilities,
      hRepresents.path, ?_, ?_, ?_, ?_⟩
    · rw [Place.parent?, hAbove]
      rfl
    · exact index_lt_of_mem_below hParent (parent.below.roots_sublist_values.subset hRoot)
    · simp only [Place.depth, hAbove, List.length_cons]
    · rw [← List.head?_filter]
      cases hShown : origin.above.filter Node.isBound with
      | nil =>
        rw [hShown, List.map_nil, List.nil_append, List.cons.injEq, Prod.mk.injEq] at hEntries
        exact (index_eq_zero_iff hParent).mpr hEntries.1.2
      | cons above rest =>
        rw [hShown, List.map_cons, List.cons_append, List.cons.injEq, Prod.mk.injEq] at hEntries
        exact hEntries.1

/-- The tree shows the part of the hierarchy at and below a root without loss. -/
structure Projects (hierarchy : Hierarchy) (root : NodeId) (tree : BindingTree) : Prop where
  /-- The annotated nodes are those with an entry and those recorded as hidden. -/
  annotated : (tree.entryNodes ++ tree.hiddenNodes).Perm
    (((hierarchy.subtree root).filter fun place => place.value.isBound).map
      fun place => place.value.id)
  once : (tree.entryNodes ++ tree.hiddenNodes).Nodup
  entriesInOrder : tree.entryNodes.Sublist
    ((hierarchy.subtree root).map fun place => place.value.id)
  hiddenInOrder : tree.hiddenNodes.Sublist
    ((hierarchy.subtree root).map fun place => place.value.id)
  indices : (tree.places.map fun place => place.value.index) = List.range tree.size
  template : ∃ place ∈ tree.places, place.value.index = 0 ∧ place.value.binding = none ∧
    place.value.node = root ∧ place.value.path = [hierarchy.label root] ∧ place.parent? = none ∧
      place.depth = 0
  entries : ∀ place ∈ tree.places, place.value.index ≠ 0 →
    ∃ origin ∈ hierarchy.subtree root, ∃ parent ∈ tree.places, HangsUnder origin place parent
  childrenAscend : ∀ place ∈ tree.places, place.children.Pairwise (· < ·)
  mem_children_iff : ∀ place ∈ tree.places, ∀ index, index ∈ place.children ↔
    ∃ child ∈ tree.places, child.value.index = index ∧ child.parent? = some place.value.index
  find_some : ∀ node place, tree.find? node = some place →
    (place ∈ tree.places ∧ place.value.index ≠ 0 ∧ place.value.node = node) ∧
      ∀ other ∈ tree.places, other.value.index ≠ 0 → other.value.node = node → other = place
  find_none : ∀ node, tree.find? node = none →
    ∀ place ∈ tree.places, place.value.index ≠ 0 → place.value.node ≠ node

theorem node_ne_of_find?_eq_none {node : NodeId}
    (hFind : (build hierarchy root).find? node = none)
    (hPlace : place ∈ (build hierarchy root).places) (hIndex : place.value.index ≠ 0) :
    place.value.node ≠ node := by
  intro hNode
  have hNone := List.find?_eq_none.mp hFind place hPlace
  simp [isSome_binding_of_index_ne_zero hPlace hIndex, hNode] at hNone

theorem root_build (hierarchy : Hierarchy) (root : NodeId) :
    (build hierarchy root).root.node = root ∧
      (build hierarchy root).root.path = [hierarchy.label root] := by
  rw [build, Hierarchy.label]
  cases hTop : hierarchy.place? root with
  | none => exact ⟨rfl, rfl⟩
  | some top => exact ⟨Hierarchy.id_of_place? hTop, rfl⟩

/-- The tree built for a root loses no annotated node at or below it, and tells how they lie. -/
theorem projects_build (hierarchy : Hierarchy) (root : NodeId) :
    Projects hierarchy root (build hierarchy root) where
  annotated := entryNodes_append_hiddenNodes_perm hierarchy root
  once := by
    refine (entryNodes_append_hiddenNodes_perm hierarchy root).nodup_iff.mpr ?_
    exact (Hierarchy.nodup_ids_subtree hierarchy root).sublist (List.filter_sublist.map _)
  entriesInOrder := by
    rw [entryNodes_build]
    exact List.filter_sublist.map _
  hiddenInOrder := by
    rw [hiddenNodes_build]
    exact List.filter_sublist.map _
  indices := map_index_places _
  template := by
    obtain ⟨hNode, hPath⟩ := root_build hierarchy root
    exact ⟨_, List.mem_cons_self, rfl, binding_root_build hierarchy root, hNode, hPath, rfl, rfl⟩
  entries _ hPlace hIndex := exists_hangsUnder hPlace hIndex
  childrenAscend _ hPlace := pairwise_children hPlace
  mem_children_iff _ hPlace _ := mem_children_iff hPlace
  find_some _ _ hFind := by
    obtain ⟨hPlace, hBound, hNode⟩ := find?_eq_some hFind
    have hIndex := index_ne_zero (binding_root_build hierarchy root) hPlace hBound
    refine ⟨⟨hPlace, hIndex, hNode⟩, fun other hOther hOtherIndex => ?_⟩
    exact eq_of_find?_eq_some hFind hOther (isSome_binding_of_index_ne_zero hOther hOtherIndex)
  find_none _ hFind _ hPlace hIndex := node_ne_of_find?_eq_none hFind hPlace hIndex

end BindingTree

end TemplateBinding
