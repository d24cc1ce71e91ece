import TemplateBinding.Proofs.Attachment
import TemplateBinding.Proofs.PathComponents
import TemplateBinding.Proofs.Projection

/-!
# Label paths

A node is addressed by the labels on the way down to it, joined by slashes.  Labels without slashes
can be told apart in the joined text, empty ones too, so a path leads to one node only if siblings
differ in their labels.  The paths that a binding tree collects on its way down, and those that
findings show, are these paths.
-/
namespace TemplateBinding
set_option autoImplicit false

open BindingTree (Slot)

/-! ## Joined labels -/

theorem intercalate_slash_injective {first second : List String} (hFirst : first ≠ [])
    (hSecond : second ≠ []) (hFirstFlat : ∀ label ∈ first, '/' ∉ label.toList)
    (hSecondFlat : ∀ label ∈ second, '/' ∉ label.toList)
    (h : "/".intercalate first = "/".intercalate second) : first = second := by
  have hPieces {labels : List String} (hLabels : labels ≠ [])
      (hFlat : ∀ label ∈ labels, '/' ∉ label.toList) :
      PathName.pieces ("/".intercalate labels).toList = labels.map String.toList := by
    rw [String.toList_intercalate]
    refine PathName.pieces_joinPieces (mt List.map_eq_nil_iff.mp hLabels) fun piece hPiece => ?_
    obtain ⟨label, hLabel, rfl⟩ := List.mem_map.mp hPiece
    exact hFlat label hLabel
  have hMap : first.map String.toList = second.map String.toList := by
    rw [← hPieces hFirst hFirstFlat, ← hPieces hSecond hSecondFlat, h]
  exact List.map_injective_iff.mpr (fun _ _ => String.toList_inj.mp) hMap

/-! ## Documents whose paths are unique -/

/-- Siblings differ in their labels, and no label looks like several. -/
structure Document.Addressable (document : Document) : Prop where
  distinct : ∀ place ∈ document.places, (place.below.roots.map Record.label).Nodup
  flat : ∀ record ∈ document.values, '/' ∉ record.label.toList

namespace Hierarchy

variable {hierarchy : Hierarchy} {place other : Place Node} {node : NodeId}

theorem labels_eq_concat {parent : Place Node} (h : place.above = parent.value :: parent.above) :
    labels place = labels parent ++ [place.value.label] := by
  rw [labels, labels, h, List.reverse_cons, List.map_append]
  rfl

theorem labels_ne_nil (place : Place Node) : labels place ≠ [] := by simp [labels]

theorem labels_of_top (h : place.above = []) : labels place = [place.value.label] := by
  rw [labels, h]
  rfl

theorem labels_ne_of_top {parent : Place Node} (hTop : place.above = [])
    (hAbove : other.above = parent.value :: parent.above) : labels place ≠ labels other := by
  intro hLabels
  have hCount := congrArg List.length hLabels
  have hPositive := List.length_pos_iff.mpr (labels_ne_nil parent)
  rw [labels_of_top hTop, labels_eq_concat hAbove, List.length_append, List.length_singleton,
    List.length_singleton] at hCount
  omega

theorem mem_document_values {value : Node} (h : value ∈ hierarchy.nodes.values) :
    value.toRecord ∈ hierarchy.document.values := by
  rw [← map_toRecord_nodes, Tree.values_map]
  exact List.mem_map_of_mem h

theorem flat_labels (h : hierarchy.document.Addressable) (hPlace : place ∈ hierarchy.places) :
    ∀ label ∈ labels place, '/' ∉ label.toList := by
  intro label hLabel
  obtain ⟨value, hValue, rfl⟩ := List.mem_map.mp hLabel
  refine h.flat _ (mem_document_values ?_)
  rcases List.mem_cons.mp (List.mem_reverse.mp hValue) with rfl | hAbove
  · exact Tree.mem_values_of_mem_places hPlace
  · exact Tree.mem_values_of_mem_above hPlace hAbove

theorem nodup_labels_below (h : hierarchy.document.Addressable) (hPlace : place ∈ hierarchy.places) :
    (place.below.roots.map fun child => child.label).Nodup := by
  have hMem : place.map Node.toRecord ∈ hierarchy.document.places := by
    rw [← map_toRecord_nodes, Tree.places_map]
    exact List.mem_map_of_mem hPlace
  have hDistinct := h.distinct _ hMem
  rwa [Place.map, Forest.roots_map, List.map_map] at hDistinct

theorem eq_of_value_eq (hPlace : place ∈ hierarchy.places) (hOther : other ∈ hierarchy.places)
    (h : place.value = other.value) : place = other := by
  have hFound := place?_of_mem_places hPlace
  rw [h, place?_of_mem_places hOther] at hFound
  exact (Option.some.inj hFound).symm

/-- Places with the same labels on the way down are one place. -/
theorem eq_of_labels_eq (h : hierarchy.document.Addressable) (hPlace : place ∈ hierarchy.places)
    (hOther : other ∈ hierarchy.places) (hLabels : labels place = labels other) : place = other := by
  -- By induction on the way down: the places above are the same, and siblings differ.
  induction hLength : place.above.length generalizing place other with
  | zero =>
    have hTop : place.above = [] := List.eq_nil_of_length_eq_zero hLength
    rcases Tree.place_cases hPlace with rfl | ⟨_, _, hAbove, _⟩
    · rcases Tree.place_cases hOther with rfl | ⟨_, _, hAbove, _⟩
      · rfl
      · exact absurd hLabels (labels_ne_of_top hTop hAbove)
    · rw [hTop] at hAbove
      cases hAbove
  | succ length ih =>
    rcases Tree.place_cases hPlace with rfl | ⟨parent, hParent, hAbove, hRoot⟩
    · cases hLength
    rcases Tree.place_cases hOther with rfl | ⟨second, hSecond, hSecondAbove, hSecondRoot⟩
    · exact absurd hLabels.symm (labels_ne_of_top rfl hAbove)
    rw [labels_eq_concat hAbove, labels_eq_concat hSecondAbove] at hLabels
    obtain ⟨hParents, hLast⟩ := List.append_inj' hLabels rfl
    rw [hAbove, List.length_cons] at hLength
    obtain rfl := ih hParent hSecond hParents (Nat.succ.inj hLength)
    refine eq_of_value_eq hPlace hOther ?_
    exact List.inj_on_of_nodup_map (nodup_labels_below h hParent) hRoot hSecondRoot
      (List.cons.inj hLast).1

theorem pathOf_of_mem_places (h : place ∈ hierarchy.places) :
    hierarchy.pathOf place.value.id = "/".intercalate (labels place) := by
  rw [pathOf, place?_of_mem_places h, Option.elim_some]

theorem nodup_places (hierarchy : Hierarchy) : hierarchy.places.Nodup := by
  refine List.Nodup.of_map (fun place => place.value.id) ?_
  have hIds := hierarchy.nodup_ids
  rwa [← Tree.map_value_places, List.map_map] at hIds

theorem nodesAt_pathOf (h : hierarchy.document.Addressable) (hPlace : place ∈ hierarchy.places) :
    hierarchy.nodesAt (hierarchy.pathOf place.value.id) = [place.value.id] := by
  have hFilter : (hierarchy.places.filter fun other =>
      "/".intercalate (labels other) == hierarchy.pathOf place.value.id) =
        hierarchy.places.filter fun other => other == place := by
    refine List.filter_congr fun other hOther => ?_
    rw [pathOf_of_mem_places hPlace, Bool.eq_iff_iff, beq_iff_eq, beq_iff_eq]
    constructor
    · intro hText
      exact eq_of_labels_eq h hOther hPlace (intercalate_slash_injective (labels_ne_nil other)
        (labels_ne_nil place) (flat_labels h hOther) (flat_labels h hPlace) hText)
    · rintro rfl
      rfl
  rw [nodesAt, hFilter, List.filter_beq, List.count_eq_one_of_mem hierarchy.nodup_places hPlace]
  rfl

theorem resolve_pathOf (h : hierarchy.document.Addressable) (hPlace : place ∈ hierarchy.places) :
    hierarchy.resolve (hierarchy.pathOf place.value.id) = .ok place.value.id := by
  rw [resolve, nodesAt_pathOf h hPlace]

theorem find?_pathOf (h : hierarchy.document.Addressable) (hPlace : place ∈ hierarchy.places) :
    hierarchy.find? (hierarchy.pathOf place.value.id) = some place.value.id := by
  rw [find?, nodesAt_pathOf h hPlace]
  rfl

/-! ## Paths collected on the way up -/

theorem lt_size_of_mem_places (h : place ∈ hierarchy.places) :
    place.value.id < hierarchy.document.size := by
  have hIds := List.mem_map_of_mem (f := Node.id) (Tree.mem_values_of_mem_places h)
  rwa [map_id_nodes, List.mem_range] at hIds

theorem exists_mem_places_of_lt (h : node < hierarchy.document.size) :
    ∃ place ∈ hierarchy.places, place.value.id = node := by
  rw [← List.mem_range, ← map_id_nodes] at h
  obtain ⟨value, hValue, rfl⟩ := List.mem_map.mp h
  obtain ⟨place, hPlace, rfl⟩ := exists_place?_of_mem_nodes hValue
  exact ⟨place, mem_places_of_place? hPlace, rfl⟩

/-- A path is the path of the node above with one more label. -/
theorem pathOf_eq (hierarchy : Hierarchy) (node : NodeId) :
    hierarchy.pathOf node = (hierarchy.parent node).elim (hierarchy.label node) fun above =>
      hierarchy.pathOf above ++ "/" ++ hierarchy.label node := by
  rw [pathOf, parent, label]
  cases hPlace : hierarchy.place? node with
  | none => rfl
  | some place =>
    rw [Option.elim_some, Option.bind_some, Option.elim_some]
    rcases Tree.place_cases (mem_places_of_place? hPlace) with rfl | ⟨above, hAbove, hBelow, _⟩
    · rw [labels_of_top rfl, String.intercalate_singleton]
      rfl
    · rw [labels_eq_concat hBelow, hBelow, String.intercalate_append_of_ne_nil (labels_ne_nil above)
        (List.cons_ne_nil _ _), String.intercalate_singleton, ← pathOf_of_mem_places hAbove]
      rfl

end Hierarchy

/-! ## Paths collected on the way down -/

namespace BindingTree

variable {hierarchy : Hierarchy} {config : Config}

/-- Every entry of the tree of a document has the labels of a node for its path. -/
theorem exists_place_of_mem_build {entry : Entry} (h : entry ∈ (build hierarchy 0).values) :
    ∃ place ∈ hierarchy.places, place.value.id = entry.node ∧
      Hierarchy.labels place = entry.path := by
  rcases List.mem_cons.mp h with rfl | h
  · exact ⟨⟨[], hierarchy.nodes.root, hierarchy.nodes.children⟩, List.mem_cons_self, rfl, rfl⟩
  · rw [← Forest.map_value_places [(build hierarchy 0).root]] at h
    obtain ⟨place, hPlace, rfl⟩ := List.mem_map.mp h
    obtain ⟨origin, hOrigin, hSame⟩ := exists_of_forall₂ (represents_build hierarchy 0) hPlace
    exact ⟨origin, (List.mem_filter.mp hOrigin).1, hSame.node.symm, hSame.path.symm⟩

theorem exists_place_of_mem_hidden {entry : Entry} {hidden : Hidden}
    (h : entry ∈ (build hierarchy 0).values) (hHidden : hidden ∈ entry.hidden) :
    ∃ place ∈ hierarchy.places, hidden = hiddenOf place := by
  have hMem : hidden ∈ (build hierarchy 0).values.flatMap Entry.hidden :=
    List.mem_flatMap.mpr ⟨entry, h, hHidden⟩
  rw [hidden_build] at hMem
  obtain ⟨place, hPlace, rfl⟩ := List.mem_map.mp hMem
  exact ⟨place, (List.mem_filter.mp hPlace).1, rfl⟩

/-- Where a path belongs to a node, it is the path of this node. -/
def IsPathOf (hierarchy : Hierarchy) (node : NodeId) (path : String) : Prop :=
  node < hierarchy.document.size ∧ path = hierarchy.pathOf node

theorem isPathOf_labels {place : Place Node} (h : place ∈ hierarchy.places) :
    IsPathOf hierarchy place.value.id ("/".intercalate (Hierarchy.labels place)) :=
  ⟨Hierarchy.lt_size_of_mem_places h, (Hierarchy.pathOf_of_mem_places h).symm⟩

theorem isPathOf_pathText {entry : Entry} (h : entry ∈ (build hierarchy 0).values) :
    IsPathOf hierarchy entry.node entry.pathText := by
  obtain ⟨place, hPlace, hNode, hPath⟩ := exists_place_of_mem_build h
  rw [← hNode, Entry.pathText, ← hPath]
  exact isPathOf_labels hPlace

theorem isPathOf_targetPath {finding : Finding} (h : finding ∈ (build hierarchy 0).findings config) :
    IsPathOf hierarchy finding.target finding.targetPath := by
  obtain ⟨located, hLocated, rfl⟩ := List.mem_map.mp h
  obtain ⟨slot, hSlot, _, hConcerns⟩ := exists_slot_of_mem_locatedFindings hLocated
  change IsPathOf hierarchy located.target located.targetPath
  have hEntry := mem_values_of_mem_slots hSlot
  generalize located.target = node, located.targetPath = path at hConcerns
  cases hConcerns with
  | entry => exact isPathOf_pathText hEntry
  | hidden hHidden =>
    obtain ⟨place, hPlace, rfl⟩ := exists_place_of_mem_hidden hEntry hHidden
    exact isPathOf_labels hPlace

/-! ## Paths as addresses -/

/-- The paths of a hierarchy lead to its nodes, and whoever shows a path shows this one. -/
structure PathsAgree (hierarchy : Hierarchy) (config : Config) : Prop where
  resolved : hierarchy.document.Addressable → ∀ node < hierarchy.document.size,
    hierarchy.resolve (hierarchy.pathOf node) = .ok node ∧
      hierarchy.find? (hierarchy.pathOf node) = some node
  /-- The path is the one collected on the way up to the top. -/
  climbed : ∀ node, hierarchy.pathOf node =
    (hierarchy.parent node).elim (hierarchy.label node) fun above =>
      hierarchy.pathOf above ++ "/" ++ hierarchy.label node
  entries : ∀ entry ∈ (build hierarchy 0).values, IsPathOf hierarchy entry.node entry.pathText
  findings : ∀ finding ∈ (build hierarchy 0).findings config,
    IsPathOf hierarchy finding.target finding.targetPath

theorem pathsAgree (hierarchy : Hierarchy) (config : Config) : PathsAgree hierarchy config where
  resolved h node hNode := by
    obtain ⟨place, hPlace, rfl⟩ := Hierarchy.exists_mem_places_of_lt hNode
    exact ⟨Hierarchy.resolve_pathOf h hPlace, Hierarchy.find?_pathOf h hPlace⟩
  climbed := hierarchy.pathOf_eq
  entries _ := isPathOf_pathText
  findings _ := isPathOf_targetPath

/-- Two labels are empty, one below the other, and the binding there has no name. -/
def blankRows : Hierarchy where
  document := ⟨{ label := "Hud" }, .ofTrees [⟨{ label := "" }, .ofTrees [
    ⟨{ label := "", binding := some ⟨.member, "", "Text", none⟩ }, .nil⟩]⟩,
    ⟨{ label := "Row" }, .nil⟩]⟩

theorem pathsAgree_blankRows :
    blankRows.document.Addressable ∧ blankRows.pathOf 2 = "Hud//" ∧
      blankRows.resolve "Hud//" = .ok 2 ∧ blankRows.find? "Hud//" = some 2 ∧
      ∀ finding ∈ (build blankRows 0).findings {},
        IsPathOf blankRows finding.target finding.targetPath := by
  have hAddressable : blankRows.document.Addressable := ⟨by decide, by decide⟩
  have hPath : blankRows.pathOf 2 = "Hud//" := by decide
  have hAgree := pathsAgree blankRows {}
  obtain ⟨hResolved, hFound⟩ := hAgree.resolved hAddressable 2 (by decide)
  rw [hPath] at hResolved hFound
  exact ⟨hAddressable, hPath, hResolved, hFound, hAgree.findings⟩

end BindingTree

end TemplateBinding
