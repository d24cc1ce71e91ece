import TemplateBinding.BindingTree
import TemplateBinding.Proofs.HierarchyEdit

/-!
# Building after an edit

Every entry of a binding tree comes from a node, and no node has two entries.  An edit of nodes
that changes entries in a fixed way, and turns nothing into a leaf or out of one, commutes with
building.  So a new kind for a node shows up in the tree as a new kind for its entry.
-/
namespace TemplateBinding
set_option autoImplicit false

open BindingTree (Slot)

namespace Entry

theorem withKind_of_binding_eq_none {kind : Kind} {entry : Entry} (h : entry.binding = none) :
    entry.withKind kind = entry := by
  cases entry
  subst h
  rfl

def retype (node : NodeId) (kind : Kind) (entry : Entry) : Entry :=
  if entry.node = node then entry.withKind kind else entry

theorem retype_of_binding_eq_none {node : NodeId} {kind : Kind} {entry : Entry}
    (h : entry.binding = none) : entry.retype node kind = entry := by
  rw [retype, withKind_of_binding_eq_none h, ite_self]

end Entry

namespace BindingTree

/-! ## Origins -/

theorem exists_node_of_mem_contract {path : List String} {forest : Forest Node} {entry : Entry}
    (h : entry ∈ (contract path forest).values) :
    entry.binding.isSome ∧
      ∃ node ∈ forest.values, node.id = entry.node ∧ node.binding = entry.binding := by
  induction forest generalizing path with
  | nil => cases h
  | cons node below rest hBelow hRest =>
    have hLiftBelow {inner : List String} (hIn : entry ∈ (contract inner below).values) :
        entry.binding.isSome ∧ ∃ origin ∈ (Forest.cons node below rest).values,
          origin.id = entry.node ∧ origin.binding = entry.binding := by
      obtain ⟨hBound, origin, hOrigin, hSame⟩ := hBelow hIn
      exact ⟨hBound, origin, Forest.mem_values_cons.mpr (.inr (.inl hOrigin)), hSame⟩
    have hLiftRest (hIn : entry ∈ (contract path rest).values) :
        entry.binding.isSome ∧ ∃ origin ∈ (Forest.cons node below rest).values,
          origin.id = entry.node ∧ origin.binding = entry.binding := by
      obtain ⟨hBound, origin, hOrigin, hSame⟩ := hRest hIn
      exact ⟨hBound, origin, Forest.mem_values_cons.mpr (.inr (.inr hOrigin)), hSame⟩
    rw [contract] at h
    cases hBinding : node.binding with
    | none =>
      simp only [hBinding, Forest.values_append, List.mem_append] at h
      exact h.elim hLiftBelow hLiftRest
    | some binding =>
      simp only [hBinding] at h
      split at h
      · rcases List.mem_cons.mp h with rfl | h
        · exact ⟨rfl, node, List.mem_cons_self, rfl, hBinding⟩
        · exact hLiftRest h
      · rcases Forest.mem_values_cons.mp h with rfl | h | h
        · exact ⟨rfl, node, List.mem_cons_self, rfl, hBinding⟩
        · exact hLiftBelow h
        · exact hLiftRest h

theorem nodes_contract_sublist (path : List String) (forest : Forest Node) :
    ((contract path forest).values.map Entry.node).Sublist (forest.values.map Node.id) := by
  induction forest generalizing path with
  | nil => exact List.Sublist.refl _
  | cons node below rest hBelow hRest =>
    have hBoth := (hBelow (path ++ [node.label])).append (hRest path)
    rw [contract, Forest.values, List.map_cons, List.map_append]
    cases node.binding with
    | none =>
      simp only [Forest.values_append, List.map_append]
      exact List.Sublist.cons _ hBoth
    | some binding =>
      dsimp only
      split
      · exact List.Sublist.cons_cons _ ((hRest path).trans (List.sublist_append_right _ _))
      · rw [Forest.values, List.map_cons, List.map_append]
        exact List.Sublist.cons_cons _ hBoth

theorem exists_node_of_mem_ofPlace {place : Place Node} {entry : Entry}
    (h : entry ∈ (ofPlace place).children.values) :
    entry.binding.isSome ∧
      ∃ node ∈ place.values, node.id = entry.node ∧ node.binding = entry.binding := by
  have hLift {path : List String} (hIn : entry ∈ (contract path place.below).values) :
      entry.binding.isSome ∧
        ∃ node ∈ place.values, node.id = entry.node ∧ node.binding = entry.binding := by
    obtain ⟨hBound, node, hNode, hSame⟩ := exists_node_of_mem_contract hIn
    exact ⟨hBound, node, List.mem_cons_of_mem _ hNode, hSame⟩
  rw [ofPlace] at h
  cases hBinding : place.value.binding with
  | none =>
    simp only [hBinding] at h
    exact hLift h
  | some binding =>
    simp only [hBinding, Forest.values, List.append_nil, List.mem_cons] at h
    rcases h with rfl | h
    · exact ⟨rfl, place.value, List.mem_cons_self, rfl, hBinding⟩
    · exact hLift h

theorem nodes_ofPlace_sublist (place : Place Node) :
    ((ofPlace place).children.values.map Entry.node).Sublist (place.values.map Node.id) := by
  have hBelow := nodes_contract_sublist [place.value.label] place.below
  rw [ofPlace, Place.values, List.map_cons]
  cases place.value.binding with
  | none => exact List.Sublist.cons _ hBelow
  | some binding =>
    simp only [Forest.values, List.append_nil, List.map_cons]
    exact List.Sublist.cons_cons _ hBelow

variable {hierarchy : Hierarchy} {root node : NodeId} {kind : Kind}

theorem binding_root_build (hierarchy : Hierarchy) (root : NodeId) :
    (build hierarchy root).root.binding = none := by
  rw [build]
  split <;> rfl

theorem nodup_nodes_build (hierarchy : Hierarchy) (root : NodeId) :
    ((build hierarchy root).children.values.map Entry.node).Nodup := by
  rw [build]
  cases hPlace : hierarchy.place? root with
  | none => exact List.nodup_nil
  | some place =>
    exact (Hierarchy.nodup_ids_of_place? hPlace).sublist (nodes_ofPlace_sublist place)

/-! ## Edits that building follows -/

/-- The edit keeps what a boundary is, and changes entries as stated. -/
structure Follows (edit : Node → Node) (follow : Entry → Entry) (node : Node) : Prop where
  id : (edit node).id = node.id
  label : (edit node).label = node.label
  capabilities : (edit node).capabilities = node.capabilities
  isSome : (edit node).binding.isSome = node.binding.isSome
  leaf : ∀ old new, node.binding = some old → (edit node).binding = some new →
    (new.kind = .leaf ↔ old.kind = .leaf)
  entry : ∀ old new path hidden, node.binding = some old → (edit node).binding = some new →
    { entryOf path (edit node) new with hidden } = follow { entryOf path node old with hidden }

variable {edit : Node → Node} {follow : Entry → Entry}

theorem Follows.of_unseen {other : Node} (hId : (edit other).id = other.id)
    (hLabel : (edit other).label = other.label)
    (hCapabilities : (edit other).capabilities = other.capabilities)
    (hBinding : (edit other).binding = other.binding)
    (hFollow : ∀ entry : Entry, entry.node = other.id → follow entry = entry) :
    Follows edit follow other where
  id := hId
  label := hLabel
  capabilities := hCapabilities
  isSome := by rw [hBinding]
  leaf old new hOld hNew := by
    rw [hBinding, hOld] at hNew
    rw [Option.some.inj hNew]
  entry old new path hidden hOld hNew := by
    rw [hBinding, hOld] at hNew
    rw [hFollow { entryOf path other old with hidden } rfl, entryOf, entryOf, hId, hLabel,
      hCapabilities, Option.some.inj hNew]

theorem hiddenIn_map (path : List String) (forest : Forest Node)
    (h : ∀ node ∈ forest.values, Follows edit follow node) :
    hiddenIn path (forest.map edit) = hiddenIn path forest := by
  induction forest generalizing path with
  | nil => rfl
  | cons node below rest hBelow hRest =>
    obtain ⟨hNode, hInBelow, hInRest⟩ := Forest.forall_mem_values_cons.mp h
    rw [Forest.map, hiddenIn, hiddenIn, hNode.id, hNode.label, hNode.isSome, hBelow _ hInBelow,
      hRest _ hInRest]

theorem contract_map (path : List String) (forest : Forest Node)
    (h : ∀ node ∈ forest.values, Follows edit follow node) :
    contract path (forest.map edit) = (contract path forest).map follow := by
  induction forest generalizing path with
  | nil => rfl
  | cons node below rest hBelow hRest =>
    obtain ⟨hNode, hInBelow, hInRest⟩ := Forest.forall_mem_values_cons.mp h
    rw [Forest.map, contract, contract, hNode.label, hBelow _ hInBelow, hRest _ hInRest,
      hiddenIn_map _ _ hInBelow]
    have hSome := hNode.isSome
    cases hOld : node.binding with
    | none =>
      rw [hOld, Option.isSome_none, Option.isSome_eq_false_iff, Option.isNone_iff_eq_none] at hSome
      rw [hSome, Forest.map_append]
    | some old =>
      rw [hOld, Option.isSome_some] at hSome
      obtain ⟨new, hNew⟩ := Option.isSome_iff_exists.mp hSome
      simp only [hNew, hNode.leaf old new hOld hNew]
      split
      · rw [hNode.entry old new _ _ hOld hNew, Forest.map]
        rfl
      · exact congrArg (Forest.cons · _ _) (hNode.entry old new _ [] hOld hNew)

theorem ofPlace_map (place : Place Node) (h : ∀ node ∈ place.values, Follows edit follow node)
    (hRoot : ∀ entry : Entry, entry.binding = none → follow entry = entry) :
    ofPlace (place.map edit) = (ofPlace place).map follow := by
  have hTop := h place.value List.mem_cons_self
  have hBelow (path : List String) := contract_map path place.below fun node hNode =>
    h node (List.mem_cons_of_mem _ hNode)
  rw [ofPlace, ofPlace, Tree.map, hRoot _ rfl]
  simp only [Place.map, hTop.id, hTop.label, hTop.capabilities, hBelow]
  congr 1
  have hSome := hTop.isSome
  cases hOld : place.value.binding with
  | none =>
    rw [hOld, Option.isSome_none, Option.isSome_eq_false_iff, Option.isNone_iff_eq_none] at hSome
    simp only [hSome]
  | some old =>
    rw [hOld, Option.isSome_some] at hSome
    obtain ⟨new, hNew⟩ := Option.isSome_iff_exists.mp hSome
    simp only [hNew]
    exact congrArg (Forest.cons · _ _) (hTop.entry old new _ [] hOld hNew)

theorem build_congr {first second : Hierarchy} (h : first.document = second.document)
    (root : NodeId) : build first root = build second root := by
  rw [build, build, Hierarchy.place?, Hierarchy.place?, Hierarchy.places, Hierarchy.places,
    Hierarchy.nodes, Hierarchy.nodes, h]

theorem build_modify_readOnly (hierarchy : Hierarchy) (root node : NodeId) (readOnly : Bool) :
    build (hierarchy.modify node fun record => { record with readOnly }) root =
      build hierarchy root := by
  rw [build, build, Hierarchy.place?_modify]
  cases hierarchy.place? root with
  | none => rfl
  | some place =>
    have hFollows : ∀ other ∈ place.values, Follows
        (Node.editAt node fun record => { record with readOnly }) (fun entry => entry) other := by
      intro other _
      by_cases h : other.id = node
      · refine .of_unseen ?_ ?_ ?_ ?_ fun _ _ => rfl <;> rw [Node.editAt, if_pos h]
      · have hSame := Node.editAt_of_ne (fun record => { record with readOnly }) h
        exact .of_unseen (by rw [hSame]) (by rw [hSame]) (by rw [hSame]) (by rw [hSame])
          fun _ _ => rfl
    exact (ofPlace_map place hFollows fun _ _ => rfl).trans (Tree.map_id_of_forall _ _ fun _ _ => rfl)

end BindingTree

end TemplateBinding
