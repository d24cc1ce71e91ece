import TemplateBinding.Proofs.ConversionConditions

/-!
# Names shared inside one scope

A new kind moves an entry to another scope in two ways only: the scope at the converted entry is
dissolved into the scope around it, or it is split off from that scope.  The check asks for nodes
that clash now and did not before.  So an allowed conversion brings two fields of one name together
only where a dissolved scope and the scope around it repeat this name already.
-/
namespace TemplateBinding
set_option autoImplicit false

open BindingTree (Slot)

namespace Place

/-- The node has a field of this name in the scope. -/
def HasField (scope : Place Slot) (node : NodeId) (name : String) : Prop :=
  ∃ slot ∈ scope.members, slot.node = node ∧ slot.name? = some name

instance (scope : Place Slot) (node : NodeId) (name : String) :
    Decidable (scope.HasField node name) :=
  inferInstanceAs (Decidable (∃ slot ∈ scope.members, slot.node = node ∧ slot.name? = some name))

end Place

namespace BindingTree

variable {tree : BindingTree} {place inner scope : Place Slot} {slot old new : Slot} {kind : Kind}
  {name : String}

/-- Both nodes have a field of this name in one scope of the tree. -/
def Share (tree : BindingTree) (name : String) (first second : NodeId) : Prop :=
  ∃ scope ∈ tree.scopes, scope.HasField first name ∧ scope.HasField second name

instance (tree : BindingTree) (name : String) (first second : NodeId) :
    Decidable (tree.Share name first second) :=
  inferInstanceAs (Decidable
    (∃ scope ∈ tree.scopes, scope.HasField first name ∧ scope.HasField second name))

/-! ## The nearest scope under a new kind -/

/-- How the nearest scope above an entry can change when the entry at a place takes a kind. -/
inductive Rescoped (place : Place Slot) (kind : Kind) (old new : Slot) : Prop where
  | kept (same : old.index = new.index)
  | dissolved (opened : place.value.isScope = true) (closes : kind.opensScope = false)
      (inside : old = place.value) (outside : new = place.scope)
  | splitOff (closed : place.value.isScope = false) (outside : old = place.scope)
      (inside : new.index = place.value.index)

theorem isScope_retype_self (hBound : place.value.binding.isSome) :
    (place.value.retype place.value.index kind).isScope = kind.opensScope := by
  rw [Slot.retype_of_eq rfl]
  exact Entry.isScope_of_kind? (Slot.kind?_withKind hBound)

theorem map_retype_of_index_ne {above : List Slot} {index : Nat}
    (h : ∀ slot ∈ above, slot.index ≠ index) : above.map (Slot.retype index kind) = above := by
  calc
    above.map (Slot.retype index kind) = above.map id :=
      List.map_congr_left fun slot hSlot => Slot.retype_of_ne (h slot hSlot)
    _ = above := List.map_id above

theorem exists_between (hPlace : place ∈ tree.places) (hInner : inner ∈ tree.places)
    (h : place.value ∈ inner.above) :
    ∃ between, inner.above = between ++ place.value :: place.above ∧
      ∀ slot ∈ between, place.value.index < slot.index := by
  obtain ⟨between, back, hSplit⟩ := List.append_of_mem h
  obtain ⟨outer, hOuter, hValue, rfl, _⟩ := exists_outer hInner hSplit
  obtain rfl : outer = place := place_eq_of_index_eq hOuter hPlace (congrArg Slot.index hValue)
  refine ⟨between, hSplit, ?_⟩
  intro slot hSlot
  obtain ⟨nearer, farther, rfl⟩ := List.append_of_mem hSlot
  rw [List.append_assoc, List.cons_append] at hSplit
  obtain ⟨deeper, hDeeper, rfl, hAbove, _⟩ := exists_outer hInner hSplit
  apply index_lt_of_mem_above hDeeper
  rw [hAbove]
  exact List.mem_append_right _ List.mem_cons_self

theorem find?_between {between : List Slot} (hRoot : tree.root.binding = none)
    (hPlace : place ∈ tree.places) (hBound : place.value.binding.isSome)
    (hPlain : between.find? (fun slot => slot.isScope) = none) (slot : Slot) :
    (between ++ slot :: place.above).find? (fun slot => slot.isScope) =
      some (if slot.isScope then slot else place.scope) := by
  rw [List.find?_append, hPlain, Option.none_or, List.find?_cons,
    find?_above_eq_scope hRoot hPlace hBound]
  cases slot.isScope with
  | true => rfl
  | false => rfl

theorem rescoped_of_mem_above (hRoot : tree.root.binding = none) (hPlace : place ∈ tree.places)
    (hBound : place.value.binding.isSome) (hInner : inner ∈ tree.places)
    (hAbove : place.value ∈ inner.above)
    (hOld : inner.above.find? (fun slot => slot.isScope) = some old)
    (hNew : (inner.above.map (Slot.retype place.value.index kind)).find?
      (fun slot => slot.isScope) = some new) :
    Rescoped place kind old new := by
  obtain ⟨between, hSplit, hDeeper⟩ := exists_between hPlace hInner hAbove
  have hBetween : between.map (Slot.retype place.value.index kind) = between :=
    map_retype_of_index_ne fun slot hSlot => Nat.ne_of_gt (hDeeper slot hSlot)
  have hOuter : place.above.map (Slot.retype place.value.index kind) = place.above :=
    map_retype_of_index_ne fun slot hSlot => Nat.ne_of_lt (index_lt_of_mem_above hPlace hSlot)
  rw [hSplit] at hOld
  rw [hSplit, List.map_append, List.map_cons, hBetween, hOuter] at hNew
  cases hNearer : between.find? (fun slot => slot.isScope) with
  | some nearer =>
    rw [List.find?_append, hNearer, Option.some_or, Option.some_inj] at hOld hNew
    exact .kept (hOld ▸ hNew ▸ rfl)
  | none =>
    -- The changed entry is the nearest scope if it is one, before and after.
    rw [find?_between hRoot hPlace hBound hNearer, Option.some_inj] at hOld hNew
    rw [isScope_retype_self hBound] at hNew
    cases hOpened : place.value.isScope with
    | true =>
      rw [hOpened, if_pos rfl] at hOld
      cases hOpens : kind.opensScope with
      | true =>
        rw [hOpens, if_pos rfl] at hNew
        exact .kept (by rw [← hOld, ← hNew, Slot.index_retype])
      | false =>
        rw [hOpens, if_neg (by decide)] at hNew
        exact .dissolved hOpened hOpens hOld.symm hNew.symm
    | false =>
      rw [hOpened, if_neg (by decide)] at hOld
      cases hOpens : kind.opensScope with
      | true =>
        rw [hOpens, if_pos rfl] at hNew
        exact .splitOff hOpened hOld.symm (by rw [← hNew, Slot.index_retype])
      | false =>
        rw [hOpens, if_neg (by decide)] at hNew
        exact .kept (by rw [← hOld, ← hNew])

theorem rescoped (hRoot : tree.root.binding = none) (hPlace : place ∈ tree.places)
    (hBound : place.value.binding.isSome) (hInner : inner ∈ tree.places)
    (hOld : inner.above.find? (fun slot => slot.isScope) = some old)
    (hNew : (inner.above.map (Slot.retype place.value.index kind)).find?
      (fun slot => slot.isScope) = some new) :
    Rescoped place kind old new := by
  by_cases hAbove : place.value ∈ inner.above
  · exact rescoped_of_mem_above hRoot hPlace hBound hInner hAbove hOld hNew
  · have hSame : inner.above.map (Slot.retype place.value.index kind) = inner.above := by
      apply map_retype_of_index_ne
      intro slot hSlot hIndex
      have hValue := slot_eq_of_index_eq (Tree.mem_values_of_mem_above hInner hSlot)
        (Tree.mem_values_of_mem_places hPlace) hIndex
      exact hAbove (hValue ▸ hSlot)
    rw [hSame, hOld, Option.some_inj] at hNew
    exact .kept (congrArg Slot.index hNew)

/-- Entries that come into one scope were in one scope before, unless a scope is dissolved. -/
theorem Rescoped.eq_or_dissolved {first second : Slot} (hRoot : tree.root.binding = none)
    (hPlace : place ∈ tree.places) (hBound : place.value.binding.isSome)
    (hFirst : first ∈ tree.slots.values) (hSecond : second ∈ tree.slots.values)
    (hFirstScope : first.isScope = true) (hSecondScope : second.isScope = true)
    (hFirstNew : Rescoped place kind first new) (hSecondNew : Rescoped place kind second new) :
    first = second ∨ kind.opensScope = false ∧
      (first = place.value ∧ second = place.scope ∨
        second = place.value ∧ first = place.scope) := by
  have hOuter := Tree.mem_values_of_mem_above hPlace (scope_mem_above hRoot hPlace hBound).1
  have hValue := Tree.mem_values_of_mem_places hPlace
  cases hFirstNew with
  | kept hFirstSame =>
    cases hSecondNew with
    | kept hSecondSame =>
      exact .inl (slot_eq_of_index_eq hFirst hSecond (hFirstSame.trans hSecondSame.symm))
    | dissolved _ hCloses hInside hOutside =>
      subst hOutside
      exact .inr ⟨hCloses, .inr ⟨hInside, slot_eq_of_index_eq hFirst hOuter hFirstSame⟩⟩
    | splitOff hClosed _ hInside =>
      rw [slot_eq_of_index_eq hFirst hValue (hFirstSame.trans hInside), hClosed] at hFirstScope
      cases hFirstScope
  | dissolved hOpened hCloses hInside hOutside =>
    cases hSecondNew with
    | kept hSecondSame =>
      subst hOutside
      exact .inr ⟨hCloses, .inl ⟨hInside, slot_eq_of_index_eq hSecond hOuter hSecondSame⟩⟩
    | dissolved _ _ hSecondInside _ => exact .inl (hInside.trans hSecondInside.symm)
    | splitOff hClosed _ _ =>
      rw [hOpened] at hClosed
      cases hClosed
  | splitOff hClosed hOutside hInside =>
    cases hSecondNew with
    | kept hSecondSame =>
      rw [slot_eq_of_index_eq hSecond hValue (hSecondSame.trans hInside), hClosed] at hSecondScope
      cases hSecondScope
    | dissolved hOpened _ _ _ =>
      rw [hOpened] at hClosed
      cases hClosed
    | splitOff _ hSecondOutside _ => exact .inl (hOutside.trans hSecondOutside.symm)

/-! ## Fields that come together -/

theorem name?_retype (hPlace : place ∈ tree.places) (hSource : place.value.kind? ≠ some .leaf)
    (hTarget : kind ≠ .leaf) (hSlot : slot ∈ tree.slots.values) :
    (slot.retype place.value.index kind).name? = slot.name? := by
  by_cases h : slot.index = place.value.index
  · rw [Slot.retype_of_eq h]
    refine Slot.name?_withKind ?_ hTarget
    rwa [slot_eq_of_index_eq hSlot (Tree.mem_values_of_mem_places hPlace) h]
  · rw [Slot.retype_of_ne h]

theorem isSome_binding_of_mem_members (h : slot ∈ scope.members) : slot.binding.isSome := by
  obtain ⟨_, _, hBinding, _⟩ := mem_members h
  rw [hBinding, Option.isSome_some]

variable {hierarchy : Hierarchy} {root : NodeId}

/-- If every node that clashes clashed before, then it did so under the name it has. -/
theorem exists_clash_before (hPlace : place ∈ (build hierarchy root).places)
    (hBound : place.value.binding.isSome) (hSource : place.value.kind? ≠ some .leaf)
    (hTarget : kind ≠ .leaf)
    (hKept : ∀ other ∈ ((build hierarchy root).withKind place.value.index kind).scopes, ∀ slot,
      other.Clashes slot → ∃ other ∈ (build hierarchy root).scopes, ∃ old, other.Clashes old ∧
        old.node = slot.node)
    (hScope : scope ∈ ((build hierarchy root).withKind place.value.index kind).scopes)
    (hClash : scope.Clashes slot) (hName : slot.name? = some name) :
    ∃ before ∈ (build hierarchy root).scopes, before.HasField slot.node name ∧
      1 < before.uses name ∧ Rescoped place kind before.value scope.value := by
  have hRoot := binding_root_build hierarchy root
  obtain ⟨before, hBefore, old, hOldClash, hNode⟩ := hKept scope hScope slot hClash
  obtain ⟨inner, hInner, hInnerValue, hOldScope⟩ :=
    exists_place_of_mem_fields hBefore hOldClash.field
  obtain ⟨changed, hChanged, hChangedValue, hNewScope⟩ :=
    exists_place_of_mem_fields hScope hClash.field
  rw [places_withKind] at hChanged
  obtain ⟨origin, hOrigin, rfl⟩ := List.mem_map.mp hChanged
  have hSlot : origin.value.retype place.value.index kind = slot := hChangedValue
  have hOriginIn := Tree.mem_values_of_mem_places hOrigin
  -- Both fields are about one node, so the clashing field is the old one with its new kind.
  have hSame : old = origin.value := by
    refine slot_eq_of_node_eq (hInnerValue ▸ Tree.mem_values_of_mem_places hInner) hOriginIn
      (isSome_binding_of_mem_members hOldClash.field) ?_ ?_
    · rw [← Slot.isSome_binding_retype place.value.index kind, hSlot]
      exact isSome_binding_of_mem_members hClash.field
    · rw [hNode, ← hSlot, Slot.node_retype]
  have hOldName : old.name? = some name := by
    rw [hSame, ← name?_retype hPlace hSource hTarget hOriginIn, hSlot, hName]
  have hPlaces : inner = origin :=
    place_eq_of_index_eq hInner hOrigin (congrArg Slot.index (hInnerValue.trans hSame))
  obtain ⟨hField, shared, hShared, _, hMany⟩ := hOldClash
  rw [hOldName, Option.some_inj] at hShared
  refine ⟨before, hBefore, ⟨old, hField, hNode, hOldName⟩, hShared ▸ hMany, ?_⟩
  exact rescoped hRoot hPlace hBound hInner hOldScope (hPlaces ▸ hNewScope)

/-- A scope around which the name is repeated as well as inside. -/
structure MergesRepeats (tree : BindingTree) (place scope : Place Slot) (name : String) : Prop where
  inside : place ∈ tree.scopes
  outside : scope ∈ tree.scopes
  nearest : scope.value = place.scope
  repeatedInside : 1 < place.uses name
  repeatedOutside : 1 < scope.uses name

theorem share_before_or_mergesRepeats {first second : NodeId}
    (hPlace : place ∈ (build hierarchy root).places)
    (hBound : place.value.binding.isSome) (hSource : place.value.kind? ≠ some .leaf)
    (hTarget : kind ≠ .leaf)
    (hKept : ∀ other ∈ ((build hierarchy root).withKind place.value.index kind).scopes, ∀ slot,
      other.Clashes slot → ∃ other ∈ (build hierarchy root).scopes, ∃ old, other.Clashes old ∧
        old.node = slot.node)
    (hNamed : name.isEmpty = false) (hDistinct : first ≠ second)
    (h : ((build hierarchy root).withKind place.value.index kind).Share name first second) :
    (build hierarchy root).Share name first second ∨ kind.opensScope = false ∧
      ∃ scope, MergesRepeats (build hierarchy root) place scope name ∧
        (place.HasField first name ∧ scope.HasField second name ∨
          place.HasField second name ∧ scope.HasField first name) := by
  have hRoot := binding_root_build hierarchy root
  obtain ⟨scope, hScope, ⟨one, hOne, rfl, hOneName⟩, ⟨two, hTwo, rfl, hTwoName⟩⟩ := h
  have hMany : 1 < scope.uses name := by
    refine Place.one_lt_uses hOne hTwo hOneName hTwoName ?_
    rintro rfl
    exact hDistinct rfl
  obtain ⟨first, hFirst, hFirstField, hFirstMany, hFirstNew⟩ := exists_clash_before hPlace hBound
    hSource hTarget hKept hScope ⟨hOne, name, hOneName, hNamed, hMany⟩ hOneName
  obtain ⟨second, hSecond, hSecondField, hSecondMany, hSecondNew⟩ := exists_clash_before hPlace
    hBound hSource hTarget hKept hScope ⟨hTwo, name, hTwoName, hNamed, hMany⟩ hTwoName
  obtain ⟨hFirstPlace, hFirstOpens⟩ := mem_scopes_iff.mp hFirst
  obtain ⟨hSecondPlace, hSecondOpens⟩ := mem_scopes_iff.mp hSecond
  rcases Rescoped.eq_or_dissolved hRoot hPlace hBound (Tree.mem_values_of_mem_places hFirstPlace)
    (Tree.mem_values_of_mem_places hSecondPlace) hFirstOpens hSecondOpens hFirstNew hSecondNew with
    hSame | ⟨hCloses, ⟨hInside, hOutside⟩ | ⟨hInside, hOutside⟩⟩
  · have hPlaces := place_eq_of_index_eq hFirstPlace hSecondPlace (congrArg Slot.index hSame)
    exact .inl ⟨first, hFirst, hFirstField, hPlaces ▸ hSecondField⟩
  · obtain rfl := place_eq_of_index_eq hFirstPlace hPlace (congrArg Slot.index hInside)
    exact .inr ⟨hCloses, second, ⟨hFirst, hSecond, hOutside, hFirstMany, hSecondMany⟩,
      .inl ⟨hFirstField, hSecondField⟩⟩
  · obtain rfl := place_eq_of_index_eq hSecondPlace hPlace (congrArg Slot.index hInside)
    exact .inr ⟨hCloses, first, ⟨hSecond, hFirst, hOutside, hSecondMany, hFirstMany⟩,
      .inr ⟨hSecondField, hFirstField⟩⟩

end BindingTree

namespace Conversion

open BindingTree

variable {config : Config} {hierarchy : Hierarchy} {root node : NodeId} {target : Kind}
  {tree : BindingTree} {name : String}

theorem objection?_eq_none_iff_exists :
    objection? config tree node target = none ↔
      ∃ candidate, Allowed config tree node target candidate := by
  rw [objection?]
  cases hCheck : check config tree node target with
  | error rejection =>
    refine iff_of_false (by simp) ?_
    rintro ⟨candidate, hAllowed⟩
    rw [check_eq_ok_iff.mpr hAllowed] at hCheck
    cases hCheck
  | ok candidate => exact iff_of_true rfl ⟨candidate, check_eq_ok_iff.mp hCheck⟩

theorem exists_conflictFinding_of_hasField {scope : Place Slot} (hScope : scope ∈ tree.scopes)
    (hField : scope.HasField node name) (hNamed : name.isEmpty = false)
    (hMany : 1 < scope.uses name) :
    ∃ located ∈ tree.conflictFindings, located.target = node := by
  obtain ⟨slot, hSlot, hNode, hName⟩ := hField
  exact exists_conflictFinding_iff.mpr
    ⟨scope, hScope, slot, ⟨hSlot, name, hName, hNamed, hMany⟩, hNode⟩

/-- An allowed conversion brings two nodes of one name into one scope only by dissolving a scope,
and only where both sides repeat the name, so that both nodes have a finding about it already. -/
theorem share_of_allowed (config : Config) (hierarchy : Hierarchy) (root node : NodeId)
    (target : Kind) (first second : NodeId) (name : String)
    (hAllowed : objection? config (build hierarchy root) node target = none)
    (hDistinct : first ≠ second) (hNamed : name.isEmpty = false)
    (h : (build (hierarchy.withKind node target) root).Share name first second) :
    let before := build hierarchy root
    before.Share name first second ∨
      target = .member ∧
      (∃ located ∈ before.conflictFindings, located.target = first) ∧
      (∃ located ∈ before.conflictFindings, located.target = second) ∧
      ∃ place scope, before.find? node = some place ∧ MergesRepeats before place scope name ∧
        (place.HasField first name ∧ scope.HasField second name ∨
          place.HasField second name ∧ scope.HasField first name) := by
  intro before
  obtain ⟨candidate, hAllowed⟩ := objection?_eq_none_iff_exists.mp hAllowed
  obtain ⟨hPlace, hBound, _⟩ := find?_eq_some hAllowed.found
  have hIssue := hAllowed.noIssue
  rw [newIssue?, Option.or_eq_none_iff, introduced?_conflictFindings] at hIssue
  rw [build_withKind hAllowed.found hAllowed.kind?_ne_leaf hAllowed.targetConvertible] at h
  rcases share_before_or_mergesRepeats hPlace hBound hAllowed.kind?_ne_leaf
    hAllowed.targetConvertible hIssue.2 hNamed hDistinct h with
    hShare | ⟨hCloses, scope, hMerges, hFields⟩
  · exact .inl hShare
  · have hMember : target = .member := by
      cases target with
      | member => rfl
      | element => cases hCloses
      | component => cases hCloses
      | leaf => exact absurd rfl hAllowed.targetConvertible
    have hInside {node : NodeId} (hField : candidate.place.HasField node name) :=
      exists_conflictFinding_of_hasField hMerges.inside hField hNamed hMerges.repeatedInside
    have hOutside {node : NodeId} (hField : scope.HasField node name) :=
      exists_conflictFinding_of_hasField hMerges.outside hField hNamed hMerges.repeatedOutside
    refine .inr ⟨hMember, ?_, ?_, candidate.place, scope, hAllowed.found, hMerges, hFields⟩
    · exact hFields.elim (fun h => hInside h.1) fun h => hOutside h.2
    · exact hFields.elim (fun h => hOutside h.2) fun h => hInside h.1

/-- A panel with two titles, next to two more. -/
def fourTitles : Hierarchy where
  document := ⟨{ label := "Hud" }, .ofTrees [
    ⟨{ label := "Panel", binding := some ⟨.element, "Panel", "PanelView", none⟩ }, .ofTrees [
      ⟨{ label := "Upper", binding := some ⟨.member, "Title", "Text", none⟩ }, .nil⟩,
      ⟨{ label := "Lower", binding := some ⟨.member, "Title", "Text", none⟩ }, .nil⟩]⟩,
    ⟨{ label := "Left", binding := some ⟨.member, "Title", "Text", none⟩ }, .nil⟩,
    ⟨{ label := "Right", binding := some ⟨.member, "Title", "Text", none⟩ }, .nil⟩]⟩

theorem share_of_allowed_fourTitles :
    let before := build fourTitles 0
    objection? {} before 1 .member = none ∧ 2 ≠ 4 ∧ "Title".isEmpty = false ∧
      (build (fourTitles.withKind 1 .member) 0).Share "Title" 2 4 ∧
      ∃ place scope, before.find? 1 = some place ∧ MergesRepeats before place scope "Title" ∧
        (place.HasField 2 "Title" ∧ scope.HasField 4 "Title" ∨
          place.HasField 4 "Title" ∧ scope.HasField 2 "Title") := by
  intro before
  have hAllowed : objection? {} before 1 .member = none := by decide +kernel
  have hShare : (build (fourTitles.withKind 1 .member) 0).Share "Title" 2 4 := by decide +kernel
  have hApart : ¬before.Share "Title" 2 4 := by decide +kernel
  obtain ⟨_, _, _, hMerged⟩ := (share_of_allowed {} fourTitles 0 1 .member 2 4 "Title" hAllowed
    (by decide) (by decide) hShare).resolve_left hApart
  exact ⟨hAllowed, by decide, by decide, hShare, hMerged⟩

/-- All four titles have a finding already, so the check lets the two pairs come together. -/
theorem not_forall_share_before :
    ¬∀ (config : Config) (hierarchy : Hierarchy) (root node : NodeId) (target : Kind)
      (first second : NodeId) (name : String),
      objection? config (build hierarchy root) node target = none → first ≠ second →
        name.isEmpty = false → (build (hierarchy.withKind node target) root).Share name first second →
          (build hierarchy root).Share name first second := by
  intro h
  have hShare := h {} fourTitles 0 1 .member 2 4 "Title" (by decide +kernel) (by decide) (by decide)
    (by decide +kernel)
  exact absurd hShare (by decide +kernel)

end Conversion

end TemplateBinding
