import TemplateBinding.Hierarchy
import TemplateBinding.Proofs.Forest

/-!
# Edits of a hierarchy

The address of a node is its position, so every address occurs once.  An edit changes the record at
its address and no other; in particular a new kind changes one binding and nothing else.
-/
namespace TemplateBinding
set_option autoImplicit false

namespace Record

def withKind (kind : Kind) (record : Record) : Record :=
  { record with binding := record.binding.map fun binding => { binding with kind } }

end Record

namespace Node

def editAt (address : NodeId) (change : Record → Record) (node : Node) : Node :=
  if node.id = address then { change node.toRecord with id := node.id } else node

theorem editAt_of_ne {address : NodeId} {node : Node} (change : Record → Record)
    (h : node.id ≠ address) : node.editAt address change = node := if_neg h

end Node

namespace Hierarchy

variable {hierarchy after : Hierarchy} {node : NodeId} {kind : Kind} {place : Place Node}

/-! ## Addresses -/

theorem map_toRecord_nodes (hierarchy : Hierarchy) :
    hierarchy.nodes.map Node.toRecord = hierarchy.document := by
  rw [nodes, Tree.map_mapPositions]
  exact congrArg₂ Tree.mk rfl (Forest.mapPositions_eq_self _ 1 _ fun _ _ _ _ => rfl)

theorem eq_of_nodes_eq {first second : Hierarchy} (h : first.nodes = second.nodes)
    (hCount : first.persistCount = second.persistCount) : first = second := by
  have hDocument := congrArg (Tree.map Node.toRecord) h
  rw [map_toRecord_nodes, map_toRecord_nodes] at hDocument
  exact congrArg₂ Hierarchy.mk hDocument hCount

theorem documentAt?_zero (hierarchy : Hierarchy) :
    hierarchy.documentAt? 0 = some hierarchy.document :=
  congrArg some (map_toRecord_nodes hierarchy)

theorem map_id_nodes (hierarchy : Hierarchy) :
    hierarchy.nodes.values.map Node.id = List.range hierarchy.document.size :=
  Tree.map_position_mapPositions _ _ _ fun _ _ => rfl

theorem nodup_ids (hierarchy : Hierarchy) : (hierarchy.nodes.values.map Node.id).Nodup := by
  rw [map_id_nodes]
  exact List.nodup_range

theorem mem_places_of_place? (h : hierarchy.place? node = some place) :
    place ∈ hierarchy.nodes.places := List.mem_of_getElem? h

theorem mem_nodes_of_place? (h : hierarchy.place? node = some place) :
    place.value ∈ hierarchy.nodes.values :=
  Tree.mem_values_of_mem_places (mem_places_of_place? h)

theorem id_of_place? (h : hierarchy.place? node = some place) : place.value.id = node := by
  have hIds : (hierarchy.nodes.places.map fun place => place.value.id) =
      List.range hierarchy.document.size := by
    rw [← map_id_nodes, ← Tree.map_value_places, List.map_map]
    rfl
  have hId : (List.range hierarchy.document.size)[node]? = some place.value.id := by
    rw [← hIds, List.getElem?_map]
    exact congrArg (Option.map _) h
  obtain ⟨_, hId⟩ := List.getElem?_eq_some_iff.mp hId
  rw [← hId, List.getElem_range]

theorem place?_of_mem_places (h : place ∈ hierarchy.places) :
    hierarchy.place? place.value.id = some place := by
  obtain ⟨address, hAddress⟩ := List.mem_iff_getElem?.mp h
  have hFound : hierarchy.place? address = some place := hAddress
  rw [id_of_place? hFound, hFound]

theorem exists_place?_of_mem_nodes {value : Node} (h : value ∈ hierarchy.nodes.values) :
    ∃ place, hierarchy.place? value.id = some place ∧ place.value = value := by
  rw [← Tree.map_value_places] at h
  obtain ⟨place, hPlace, rfl⟩ := List.mem_map.mp h
  obtain ⟨address, hAddress⟩ := List.mem_iff_getElem?.mp hPlace
  have hFound : hierarchy.place? address = some place := hAddress
  rw [id_of_place? hFound]
  exact ⟨place, hFound, rfl⟩

/-- The record at an address is the one at this position of the document. -/
theorem getElem?_document_values (hierarchy : Hierarchy) (node : NodeId) :
    hierarchy.document.values[node]? =
      (hierarchy.place? node).map fun place => place.value.toRecord := by
  have hValues : hierarchy.document.values =
      hierarchy.places.map fun place => place.value.toRecord := by
    rw [← map_toRecord_nodes, Tree.values_map, ← Tree.map_value_places, List.map_map]
    rfl
  rw [hValues, List.getElem?_map, place?]

theorem nodup_ids_of_place? (h : hierarchy.place? node = some place) :
    (place.values.map Node.id).Nodup :=
  hierarchy.nodup_ids.sublist
    ((Tree.values_sublist_of_mem_places (mem_places_of_place? h)).map Node.id)

/-! ## Edits -/

theorem nodes_modify (hierarchy : Hierarchy) (node : NodeId) (change : Record → Record) :
    (hierarchy.modify node change).nodes = hierarchy.nodes.map (Node.editAt node change) := by
  rw [nodes, modify, Tree.modify_eq_mapPositions, Tree.mapPositions_mapPositions, nodes,
    Tree.map_mapPositions]
  congr 1
  funext id record
  by_cases h : id = node
  · simp only [Node.editAt, if_pos h]
  · simp only [Node.editAt, if_neg h]

theorem place?_modify (hierarchy : Hierarchy) (node other : NodeId) (change : Record → Record) :
    (hierarchy.modify node change).place? other =
      (hierarchy.place? other).map (Place.map (Node.editAt node change)) := by
  rw [place?, places, nodes_modify, Tree.places_map, List.getElem?_map]
  rfl

theorem modify_congr {first second : Record → Record}
    (h : ∀ place, hierarchy.place? node = some place →
      first place.value.toRecord = second place.value.toRecord) :
    hierarchy.modify node first = hierarchy.modify node second := by
  refine eq_of_nodes_eq ?_ rfl
  rw [nodes_modify, nodes_modify]
  refine Tree.map_congr _ _ _ fun value hValue => ?_
  rw [Node.editAt, Node.editAt]
  split
  · rename_i hId
    obtain ⟨place, hPlace, rfl⟩ := exists_place?_of_mem_nodes hValue
    rw [h place (hId ▸ hPlace)]
  · rfl

theorem modify_eq_self {change : Record → Record}
    (h : ∀ place, hierarchy.place? node = some place →
      change place.value.toRecord = place.value.toRecord) :
    hierarchy.modify node change = hierarchy := by
  have hSame : hierarchy.modify node change = hierarchy.modify node id := modify_congr h
  rw [hSame, modify, Tree.modify_id]

/-- The hierarchy with the kind of one binding replaced, whether or not the node may be edited. -/
def withKind (hierarchy : Hierarchy) (node : NodeId) (kind : Kind) : Hierarchy :=
  hierarchy.modify node (Record.withKind kind)

theorem binding_withKind (hierarchy : Hierarchy) (node : NodeId) (kind : Kind) :
    (hierarchy.withKind node kind).binding node =
      (hierarchy.binding node).map fun binding => { binding with kind } := by
  rw [binding, binding, withKind, place?_modify]
  cases hPlace : hierarchy.place? node with
  | none => rfl
  | some place =>
    simp only [Option.map_some, Option.bind_some, Place.map, Node.editAt,
      if_pos (id_of_place? hPlace), Record.withKind]

theorem withKind_withKind (hierarchy : Hierarchy) (node : NodeId) (first second : Kind) :
    (hierarchy.withKind node first).withKind node second = hierarchy.withKind node second := by
  have hTwice : (fun record => Record.withKind second (Record.withKind first record)) =
      Record.withKind second := by
    funext record
    rw [Record.withKind, Record.withKind, Option.map_map]
    rfl
  rw [withKind, withKind, modify, modify, Tree.modify_modify, hTwice]
  rfl

/-- A binding that gets the kind it has stays the same. -/
theorem withKind_kind {binding : Binding} (h : hierarchy.binding node = some binding) :
    hierarchy.withKind node binding.kind = hierarchy := by
  refine modify_eq_self fun place hPlace => ?_
  rw [Hierarchy.binding, hPlace, Option.bind_some] at h
  rw [Record.withKind, h, Option.map_some, ← h]

theorem writable_eq_ok_iff {record : Record} :
    hierarchy.writable node = .ok record ↔ ∃ place, hierarchy.place? node = some place ∧
      place.value.readOnly = false ∧ place.value.toRecord = record := by
  rw [writable]
  cases hierarchy.place? node with
  | none => simp
  | some place => cases h : place.value.readOnly <;> simp [h]

theorem setKind_eq_ok_iff :
    hierarchy.setKind node kind = .ok after ↔
      (∃ place, hierarchy.place? node = some place ∧ place.value.readOnly = false ∧
        place.value.binding.isSome) ∧ after = hierarchy.withKind node kind := by
  rw [setKind]
  cases hWritable : hierarchy.writable node with
  | error error =>
    simp only [reduceCtorEq, false_iff]
    rintro ⟨⟨place, hPlace, hReadOnly, _⟩, _⟩
    have hOk := writable_eq_ok_iff.mpr ⟨place, hPlace, hReadOnly, rfl⟩
    rw [hWritable] at hOk
    cases hOk
  | ok record =>
    obtain ⟨place, hPlace, hReadOnly, rfl⟩ := writable_eq_ok_iff.mp hWritable
    cases hBinding : place.value.binding with
    | none =>
      simp only [hBinding, reduceCtorEq, false_iff]
      rintro ⟨⟨other, hOther, _, hBound⟩, _⟩
      rw [hPlace] at hOther
      rw [← Option.some.inj hOther, hBinding] at hBound
      cases hBound
    | some binding =>
      have hSame : (hierarchy.modify node fun record =>
          { record with binding := some { binding with kind } }) = hierarchy.withKind node kind := by
        refine modify_congr fun other hOther => ?_
        rw [hPlace] at hOther
        cases hOther
        rw [Record.withKind, hBinding]
        rfl
      simp only [hBinding, hSame, Except.ok.injEq]
      constructor
      · rintro rfl
        exact ⟨⟨place, hPlace, hReadOnly, by rw [hBinding]; rfl⟩, rfl⟩
      · exact fun h => h.2.symm

end Hierarchy

end TemplateBinding
