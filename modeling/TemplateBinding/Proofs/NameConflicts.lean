import TemplateBinding.Proofs.ScopePartition
import TemplateBinding.Validation.Structure

/-!
# Conflicts of names

An entry has a finding about its name exactly when another field of the scope that lists it has the
same name, and then it has one.  The finding tells how many fields of the scope share the name.
Only the fields of this scope and what the scope is called have a part in it.
-/
namespace TemplateBinding
set_option autoImplicit false

open BindingTree (Slot)

/-- The finding about the same name with another scope in its message. -/
def Located.withScope (scope : String) (located : Located) : Located :=
  match located.issue with
  | .nameConflict name uses _ => { located with issue := .nameConflict name uses scope }
  | _ => located

theorem Located.index_withScope (scope : String) (located : Located) :
    (located.withScope scope).index = located.index := by
  rw [withScope]
  split <;> rfl

namespace BindingTree

variable {tree : BindingTree} {place other scope : Place Slot} {slot : Slot} {located : Located}

/-! ## Findings in a scope -/

def conflictAt (scope : Place Slot) (slot : Slot) (name : String) : Located :=
  .ofSlot slot (.nameConflict name (scope.uses name) scope.value.displayName) none

theorem mem_conflictFindingsIn_iff :
    located ∈ conflictFindingsIn scope ↔ ∃ slot ∈ scope.members, ∃ name : String,
      slot.name? = some name ∧ name.isEmpty = false ∧ 1 < scope.uses name ∧
        located = conflictAt scope slot name := by
  rw [conflictFindingsIn, List.mem_flatMap]
  constructor
  · rintro ⟨⟨name, holders⟩, hDuplicate, hLocated⟩
    obtain ⟨hNamed, rfl, hMany⟩ := Place.mem_duplicates_iff.mp hDuplicate
    obtain ⟨slot, hSlot, rfl⟩ := List.mem_map.mp hLocated
    obtain ⟨hField, hName⟩ := mem_holdersOf_iff.mp hSlot
    exact ⟨slot, hField, name, hName, hNamed, hMany, rfl⟩
  · rintro ⟨slot, hField, name, hName, hNamed, hMany, rfl⟩
    exact ⟨_, Place.mem_duplicates_iff.mpr ⟨hNamed, rfl, hMany⟩,
      List.mem_map_of_mem (mem_holdersOf_iff.mpr ⟨hField, hName⟩)⟩

theorem mem_conflictFindings_iff :
    located ∈ tree.conflictFindings ↔ ∃ scope ∈ tree.scopes, ∃ slot ∈ scope.members,
      ∃ name : String, slot.name? = some name ∧ name.isEmpty = false ∧ 1 < scope.uses name ∧
        located = conflictAt scope slot name := by
  rw [conflictFindings, List.mem_flatMap]
  simp only [mem_conflictFindingsIn_iff]

theorem index_mem_fieldIndices (h : located ∈ conflictFindingsIn scope) :
    located.index ∈ scope.fieldIndices := by
  obtain ⟨slot, hField, _, _, _, _, rfl⟩ := mem_conflictFindingsIn_iff.mp h
  exact List.mem_map_of_mem hField

/-! ## One finding for an entry -/

theorem nodup_index_conflictFindingsIn (hScope : scope ∈ tree.places) :
    ((conflictFindingsIn scope).map fun located => located.index).Nodup := by
  have hFields := nodup_fieldIndices hScope
  have hIndices : (conflictFindingsIn scope).map (fun located => located.index) =
      (scope.duplicates.flatMap Prod.snd).map fun slot => slot.index := by
    rw [conflictFindingsIn, List.map_flatMap, List.map_flatMap]
    refine List.flatMap_congr ?_
    rintro ⟨name, holders⟩ _
    exact List.map_map
  have hHolder {slot : Slot} (h : slot ∈ scope.duplicates.flatMap Prod.snd) :
      slot ∈ scope.members := by
    obtain ⟨⟨name, holders⟩, hDuplicate, hSlot⟩ := List.mem_flatMap.mp h
    obtain ⟨_, rfl, _⟩ := Place.mem_duplicates_iff.mp hDuplicate
    exact (mem_holdersOf_iff.mp hSlot).1
  rw [hIndices]
  refine (Place.nodup_holders (hFields.of_map _)).map_on fun first hFirst second hSecond => ?_
  exact List.inj_on_of_nodup_map hFields (hHolder hFirst) (hHolder hSecond)

theorem nodup_index_conflictFindings (tree : BindingTree) :
    (tree.conflictFindings.map fun located => located.index).Nodup := by
  rw [conflictFindings, List.map_flatMap]
  refine List.nodup_flatMap.mpr ⟨fun scope hScope => ?_, ?_⟩
  · exact nodup_index_conflictFindingsIn (mem_scopes_iff.mp hScope).1
  · -- Two scopes share no field, so they report different entries.
    refine (List.nodup_flatMap.mp (nodup_flatMap_fieldIndices tree)).2.imp fun hDisjoint => ?_
    intro index hIndex hAgain
    obtain ⟨_, hLocated, rfl⟩ := List.mem_map.mp hIndex
    obtain ⟨_, hOther, hSame⟩ := List.mem_map.mp hAgain
    exact hDisjoint (index_mem_fieldIndices hLocated) (hSame ▸ index_mem_fieldIndices hOther)

theorem exists_conflictFinding_at_iff (hPlace : place ∈ tree.places) :
    (∃ located ∈ tree.conflictFindings, located.index = place.value.index) ↔
      ∃ name : String, place.value.name? = some name ∧ name.isEmpty = false ∧
        ∃ scope ∈ tree.scopes, place.value ∈ scope.members ∧
          ∃ slot ∈ scope.members, slot.index ≠ place.value.index ∧ slot.name? = some name := by
  have hValue := Tree.mem_values_of_mem_places hPlace
  constructor
  · rintro ⟨located, hLocated, hIndex⟩
    obtain ⟨scope, hScope, slot, hField, name, hName, hNamed, hMany, rfl⟩ :=
      mem_conflictFindings_iff.mp hLocated
    have hScopePlace := (mem_scopes_iff.mp hScope).1
    obtain rfl : slot = place.value :=
      slot_eq_of_index_eq (mem_slots_of_mem_members hScopePlace hField) hValue hIndex
    obtain ⟨second, hSecond, hSecondName, hDistinct⟩ :=
      Place.exists_ne_of_one_lt_uses ((nodup_fieldIndices hScopePlace).of_map _) hMany place.value
    refine ⟨name, hName, hNamed, scope, hScope, hField, second, hSecond, fun hSame => ?_, hSecondName⟩
    exact hDistinct (slot_eq_of_index_eq (mem_slots_of_mem_members hScopePlace hSecond) hValue hSame)
  · rintro ⟨name, hName, hNamed, scope, hScope, hField, slot, hSlot, hDistinct, hSlotName⟩
    have hMany := Place.one_lt_uses hSlot hField hSlotName hName (ne_of_apply_ne _ hDistinct)
    exact ⟨_, mem_conflictFindings_iff.mpr
      ⟨scope, hScope, _, hField, name, hName, hNamed, hMany, rfl⟩, rfl⟩

/-! ## Entries of different scopes -/

def conflictsAt (tree : BindingTree) (index : Nat) : List Located :=
  tree.conflictFindings.filter fun located => located.index == index

theorem flatMap_eq_of_unique {α β : Type} {values : List α} {value : α} {f : α → List β}
    (hNodup : values.Nodup) (hValue : value ∈ values)
    (h : ∀ other ∈ values, other ≠ value → f other = []) : values.flatMap f = f value := by
  obtain ⟨before, after, rfl, hOthers⟩ := exists_split_of_mem hNodup hValue
  have hNone (others : List α) (hSubset : others ⊆ before ++ after) : others.flatMap f = [] :=
    List.flatMap_eq_nil_iff.mpr fun other hOther =>
      h other (hOthers other (hSubset hOther)).1 (hOthers other (hSubset hOther)).2
  rw [List.flatMap_append, List.flatMap_cons, hNone before (List.subset_append_left _ _),
    hNone after (List.subset_append_right _ _), List.nil_append, List.append_nil]

/-- Only the scope that lists an entry reports it. -/
theorem conflictsAt_eq (hScope : scope ∈ tree.scopes) (hField : slot ∈ scope.members) :
    tree.conflictsAt slot.index =
      (conflictFindingsIn scope).filter fun located => located.index == slot.index := by
  rw [conflictsAt, conflictFindings, List.filter_flatMap]
  refine flatMap_eq_of_unique (nodup_scopes tree) hScope fun other hOther hDistinct => ?_
  refine List.filter_eq_nil_iff.mpr fun located hLocated hIndex => hDistinct ?_
  have hListed := index_mem_fieldIndices hLocated
  rw [beq_iff_eq.mp hIndex] at hListed
  exact eq_of_mem_fieldIndices hOther hScope hListed (List.mem_map_of_mem hField)

theorem conflictFindingsIn_eq_map {first second : Place Slot}
    (h : second.members = first.members) :
    conflictFindingsIn second =
      (conflictFindingsIn first).map (Located.withScope second.value.displayName) := by
  rw [conflictFindingsIn, conflictFindingsIn, Place.duplicates, Place.duplicates, h,
    List.map_flatMap]
  refine List.flatMap_congr ?_
  rintro ⟨name, holders⟩ _
  rw [List.map_map]
  rfl

theorem map_withScope_conflictsAt (hScope : scope ∈ tree.scopes) (hField : slot ∈ scope.members) :
    (tree.conflictsAt slot.index).map (Located.withScope scope.value.displayName) =
      tree.conflictsAt slot.index := by
  rw [conflictsAt_eq hScope hField]
  refine (List.map_congr_left fun located hLocated => ?_).trans (List.map_id _)
  obtain ⟨_, _, _, _, _, _, rfl⟩ :=
    mem_conflictFindingsIn_iff.mp (List.mem_filter.mp hLocated).1
  rfl

/-- An edit that keeps a scope and its fields changes at most what the findings call the scope. -/
theorem conflictsAt_modify (edit : Entry → Entry) {index : Nat} (hScope : scope ∈ tree.scopes)
    (hField : slot ∈ scope.members)
    (hMembers : (scope.map (Slot.liftAt edit index)).members = scope.members)
    (hOpens : (scope.value.liftAt edit index).isScope = true) :
    conflictsAt (tree.modify edit index) slot.index = (tree.conflictsAt slot.index).map
      (Located.withScope (scope.value.liftAt edit index).displayName) := by
  have hEdited : scope.map (Slot.liftAt edit index) ∈ scopes (tree.modify edit index) := by
    rw [mem_scopes_iff, places_modify]
    exact ⟨List.mem_map_of_mem (mem_scopes_iff.mp hScope).1, hOpens⟩
  rw [conflictsAt_eq hEdited (hMembers ▸ hField), conflictsAt_eq hScope hField,
    conflictFindingsIn_eq_map hMembers, List.filter_map]
  simp only [Function.comp_def, Located.index_withScope, Place.map]

theorem conflictsAt_modify_of_ne (edit : Entry → Entry) (hScope : scope ∈ tree.scopes)
    (hField : slot ∈ scope.members) (hOther : other ∈ tree.places) (hDistinct : other ≠ scope)
    (hApart : scope.value.index ≠ other.scope.index) :
    conflictsAt (tree.modify edit other.value.index) slot.index = tree.conflictsAt slot.index := by
  obtain ⟨hPlace, hOpens⟩ := mem_scopes_iff.mp hScope
  have hSame : scope.value.liftAt edit other.value.index = scope.value :=
    Slot.liftAt_of_ne fun hIndex => hDistinct (place_eq_of_index_eq hOther hPlace hIndex.symm)
  have hMembers : (scope.map (Slot.liftAt edit other.value.index)).members = scope.members :=
    members_map_of_scope_ne hOther hScope hApart fun _ => Slot.liftAt_of_ne
  rw [conflictsAt_modify edit hScope hField hMembers (hSame.symm ▸ hOpens), hSame,
    map_withScope_conflictsAt hScope hField]

theorem conflictsAt_modify_self (edit : Entry → Entry) (hScope : scope ∈ tree.scopes)
    (hField : slot ∈ scope.members) (hOpens : (edit scope.value.toEntry).isScope = true) :
    conflictsAt (tree.modify edit scope.value.index) slot.index =
      (tree.conflictsAt slot.index).map
        (Located.withScope (edit scope.value.toEntry).displayName) := by
  have hOwn : scope.value.liftAt edit scope.value.index = scope.value.lift edit :=
    Slot.liftAt_of_eq rfl
  have hMembers : (scope.map (Slot.liftAt edit scope.value.index)).members = scope.members :=
    congrArg members (below_map_liftAt edit (mem_scopes_iff.mp hScope).1)
  rw [conflictsAt_modify edit hScope hField hMembers (hOwn.symm ▸ hOpens), hOwn]
  rfl

/-- A finding is about an entry whose name is used again in its scope, and says how often. -/
structure ConflictsExact (tree : BindingTree) : Prop where
  reported_iff : ∀ place ∈ tree.places,
    (∃ located ∈ tree.conflictFindings, located.index = place.value.index) ↔
      ∃ name : String, place.value.name? = some name ∧ name.isEmpty = false ∧
        ∃ scope ∈ tree.scopes, place.value ∈ scope.members ∧
          ∃ slot ∈ scope.members, slot.index ≠ place.value.index ∧ slot.name? = some name
  once : (tree.conflictFindings.map fun located => located.index).Nodup
  told : ∀ located ∈ tree.conflictFindings, ∃ scope ∈ tree.scopes, ∃ slot ∈ scope.members,
    ∃ name : String, slot.name? = some name ∧ located.index = slot.index ∧
      located.finding = {
        level := .error
        message := "Name '" ++ name ++ "' is used " ++ toString (scope.uses name) ++
          " times in scope '" ++ scope.value.displayName ++ "'."
        target := slot.node
        targetPath := slot.pathText
        suggestedFix := none
        ruleId := "NAME_CONFLICT"
        guarantee := "Names are unique within the scope that generates them." }
  /-- What becomes of entries that belong to other scopes does not matter. -/
  apart : ∀ scope ∈ tree.scopes, ∀ slot ∈ scope.members, ∀ other ∈ tree.places, other ≠ scope →
    scope.value.index ≠ other.scope.index → ∀ edit : Entry → Entry,
      conflictsAt (tree.modify edit other.value.index) slot.index = tree.conflictsAt slot.index
  /-- The scope itself matters by what it is called, as long as it stays a scope. -/
  renamed : ∀ scope ∈ tree.scopes, ∀ slot ∈ scope.members, ∀ edit : Entry → Entry,
    (edit scope.value.toEntry).isScope = true →
      conflictsAt (tree.modify edit scope.value.index) slot.index =
        (tree.conflictsAt slot.index).map
          (Located.withScope (edit scope.value.toEntry).displayName)

theorem conflictsExact (tree : BindingTree) : ConflictsExact tree where
  reported_iff _ hPlace := exists_conflictFinding_at_iff hPlace
  once := nodup_index_conflictFindings tree
  told located hLocated := by
    obtain ⟨scope, hScope, slot, hField, name, hName, _, _, rfl⟩ :=
      mem_conflictFindings_iff.mp hLocated
    exact ⟨scope, hScope, slot, hField, name, hName, rfl, rfl⟩
  apart _ hScope _ hField _ hOther hDistinct hApart edit :=
    conflictsAt_modify_of_ne edit hScope hField hOther hDistinct hApart
  renamed _ hScope _ hField edit hOpens := conflictsAt_modify_self edit hScope hField hOpens

end BindingTree

end TemplateBinding
