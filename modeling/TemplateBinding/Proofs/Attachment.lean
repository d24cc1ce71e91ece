import TemplateBinding.Proofs.ComponentPurity
import TemplateBinding.Proofs.NameConflicts
import TemplateBinding.Validation

/-!
# Attached findings

No check reads the findings that entries already have, so validation reports the same with and
without them.  Every finding is located at an entry of the tree, and pushing the findings one after
the other leaves each entry with exactly those located at it.
-/
namespace TemplateBinding
set_option autoImplicit false

open BindingTree (Slot)

namespace BindingTree

variable {config : Config} {located : Located} {slot : Slot}

/-! ## Checks of entries without their findings -/

def Slot.bare (slot : Slot) : Slot := slot.lift (Entry.withFindings [])

theorem slots_clearFindings (tree : BindingTree) :
    tree.clearFindings.slots = tree.slots.map Slot.bare := slots_map _ tree

theorem places_clearFindings (tree : BindingTree) :
    tree.clearFindings.places = tree.places.map (Place.map Slot.bare) := by
  rw [places, slots_clearFindings, Tree.places_map, places]

theorem members_map_bare (place : Place Slot) :
    (place.map Slot.bare).members = place.members.map Slot.bare :=
  members_map_of_kind?_eq Slot.bare place.below fun _ => rfl

theorem duplicates_map_bare (place : Place Slot) :
    (place.map Slot.bare).duplicates =
      place.duplicates.map fun (name, holders) => (name, holders.map Slot.bare) := by
  have hNames : names (place.members.map Slot.bare) = names place.members := by
    rw [names, List.filterMap_map]
    rfl
  have hHolders (name : String) : holdersOf (place.members.map Slot.bare) name =
      (holdersOf place.members name).map Slot.bare := List.filter_map
  rw [Place.duplicates_eq, Place.duplicates_eq, members_map_bare, hNames]
  simp only [hHolders, List.filter_map, List.map_map, Function.comp_def, List.length_map]

theorem conflictFindingsIn_map_bare (place : Place Slot) :
    conflictFindingsIn (place.map Slot.bare) = conflictFindingsIn place := by
  rw [conflictFindingsIn, duplicates_map_bare, List.flatMap_map, conflictFindingsIn]
  refine List.flatMap_congr ?_
  rintro ⟨name, holders⟩ _
  simp only [List.map_map, List.length_map]
  rfl

theorem hierarchyFindingsAt_map_bare (place : Place Slot) :
    hierarchyFindingsAt (place.map Slot.bare) = hierarchyFindingsAt place := by
  have hComponent : (place.map Slot.bare).enclosingComponent? =
      place.enclosingComponent?.map Slot.bare := List.find?_map
  rw [hierarchyFindingsAt, hComponent, hierarchyFindingsAt]
  cases place.enclosingComponent? with
  | none => rfl
  | some component => rfl

theorem locatedFindings_clearFindings (config : Config) (tree : BindingTree) :
    tree.clearFindings.locatedFindings config = tree.locatedFindings config := by
  have hIdentifiers : tree.clearFindings.identifierFindings config =
      tree.identifierFindings config := by
    rw [identifierFindings, slots_clearFindings, Tree.values_map, List.flatMap_map]
    rfl
  have hConflicts : tree.clearFindings.conflictFindings = tree.conflictFindings := by
    rw [conflictFindings, scopes, places_clearFindings, List.filter_map, List.flatMap_map]
    exact List.flatMap_congr fun place _ => conflictFindingsIn_map_bare place
  have hHierarchy : tree.clearFindings.hierarchyFindings = tree.hierarchyFindings := by
    rw [hierarchyFindings, places_clearFindings, List.flatMap_map]
    exact List.flatMap_congr fun place _ => hierarchyFindingsAt_map_bare place
  have hShadow : tree.clearFindings.shadowFindings = tree.shadowFindings := by
    rw [shadowFindings, slots_clearFindings, Tree.values_map, List.flatMap_map]
    rfl
  rw [locatedFindings, hIdentifiers, hConflicts, hHierarchy, hShadow, locatedFindings]

theorem findings_validate (config : Config) (tree : BindingTree) :
    (tree.validate config).1 = tree.findings config := by
  rw [validate, locatedFindings_clearFindings, findings]

/-! ## Locations -/

theorem exists_ofSlot_of_mem_identifierFindingsAt (h : located ∈ identifierFindingsAt config slot) :
    ∃ issue suggestedFix, located = .ofSlot slot issue suggestedFix := by
  rw [identifierFindingsAt] at h
  split at h
  · cases h
  · split at h
    · rcases List.mem_append.mp h with h | h
      · rw [nameFindings] at h
        split at h
        · cases h
        · exact ⟨_, _, List.mem_singleton.mp h⟩
      · rw [typeFindings] at h
        split at h
        · exact ⟨_, _, List.mem_singleton.mp h⟩
        · cases h
    · cases h

/-- What a finding is about: the entry at which it is attached, or a node hidden below it. -/
inductive Concerns (slot : Slot) : NodeId → String → Prop where
  | entry : Concerns slot slot.node slot.pathText
  | hidden {hidden : Hidden} (mem : hidden ∈ slot.hidden) :
      Concerns slot hidden.node ("/".intercalate hidden.path)

theorem exists_slot_of_mem_locatedFindings {tree : BindingTree}
    (h : located ∈ tree.locatedFindings config) :
    ∃ slot ∈ tree.slots.values, located.index = slot.index ∧
      Concerns slot located.target located.targetPath := by
  simp only [locatedFindings, List.mem_append] at h
  rcases h with ((h | h) | h) | h
  · obtain ⟨slot, hSlot, h⟩ := List.mem_flatMap.mp h
    obtain ⟨_, _, rfl⟩ := exists_ofSlot_of_mem_identifierFindingsAt h
    exact ⟨slot, hSlot, rfl, .entry⟩
  · obtain ⟨scope, hScope, slot, hSlot, _, _, _, _, rfl⟩ := mem_conflictFindings_iff.mp h
    exact ⟨slot, mem_slots_of_mem_members (mem_scopes_iff.mp hScope).1 hSlot, rfl, .entry⟩
  · obtain ⟨place, hPlace, _, _, _, rfl⟩ := mem_hierarchyFindings_iff.mp h
    exact ⟨place.value, Tree.mem_values_of_mem_places hPlace, rfl, .entry⟩
  · obtain ⟨slot, hSlot, h⟩ := List.mem_flatMap.mp h
    obtain ⟨hidden, hHidden, rfl⟩ := List.mem_map.mp h
    exact ⟨slot, hSlot, rfl, .hidden hHidden⟩

theorem index_lt_size {tree : BindingTree} (h : located ∈ tree.locatedFindings config) :
    located.index < tree.size := by
  obtain ⟨slot, hSlot, hIndex, _⟩ := exists_slot_of_mem_locatedFindings h
  have hRange := List.mem_map_of_mem (f := fun slot : Slot => slot.index) hSlot
  rwa [map_index_slots, List.mem_range, ← hIndex] at hRange

/-! ## Pushing findings -/

/-- The findings located at an entry, in the order in which they were found. -/
def findingsAt (located : List Located) (index : Nat) : List Finding :=
  (located.filter fun one => one.index == index).map Located.finding

theorem findingsAt_cons (one : Located) (located : List Located) (index : Nat) :
    findingsAt (one :: located) index =
      (if index = one.index then [one.finding] else []) ++ findingsAt located index := by
  rw [findingsAt, List.filter_cons]
  by_cases h : index = one.index
  · rw [if_pos h, if_pos (beq_iff_eq.mpr h.symm)]
    rfl
  · rw [if_neg h, if_neg (by simpa using Ne.symm h)]
    rfl

/-- Pushing appends to the findings of every entry those located at it. -/
theorem attach_eq_mapPositions (located : List Located) (tree : BindingTree) :
    tree.attach located = tree.mapPositions fun index entry =>
      entry.withFindings (entry.findings ++ findingsAt located index) := by
  -- Each push gives another tree, so the induction is for all of them.
  induction located generalizing tree with
  | nil =>
    refine (Tree.mapPositions_eq_self _ tree fun index entry => ?_).symm
    rw [findingsAt, List.filter_nil, List.map_nil, List.append_nil]
    rfl
  | cons one located ih =>
    have hStep : tree.attach (one :: located) =
        attach located (tree.modify (Entry.push one.finding) one.index) := rfl
    rw [hStep, ih, Tree.modify_eq_mapPositions, Tree.mapPositions_mapPositions]
    congr 1
    funext index entry
    rw [findingsAt_cons, ← List.append_assoc]
    split
    · rfl
    · rw [List.append_nil]

/-- After validation every entry has the findings located at it, and is what it was before. -/
theorem validate_snd (config : Config) (tree : BindingTree) :
    (tree.validate config).2 = tree.mapPositions fun index entry =>
      entry.withFindings (findingsAt (tree.locatedFindings config) index) := by
  rw [validate, locatedFindings_clearFindings, attach_eq_mapPositions, clearFindings,
    Tree.mapPositions_map]
  rfl

theorem findings_of_mem_places {tree : BindingTree} {place : Place Slot}
    (h : place ∈ (tree.validate config).2.places) :
    place.value.findings = findingsAt (tree.locatedFindings config) place.value.index := by
  rw [validate_snd, places, slots_mapPositions, Tree.places_map] at h
  obtain ⟨before, _, rfl⟩ := List.mem_map.mp h
  rfl

theorem flatMap_filter_range_perm {α : Type} (position : α → Nat) (bound : Nat) (items : List α) :
    ((List.range bound).flatMap fun index => items.filter fun item => position item == index).Perm
      (items.filter fun item => position item < bound) := by
  induction bound with
  | zero => simp
  | succ bound ih =>
    -- The items below the next bound are those below this one and those at it.
    have hSplit := List.filter_append_perm (fun item => decide (position item < bound))
      (items.filter fun item => position item < bound + 1)
    have hBelow : (items.filter fun item => position item < bound + 1).filter
        (fun item => position item < bound) = items.filter fun item => position item < bound := by
      rw [List.filter_filter]
      refine List.filter_congr fun item _ => ?_
      rw [Bool.eq_iff_iff]
      simp
      omega
    have hLast : (items.filter fun item => position item < bound + 1).filter
        (fun item => !decide (position item < bound)) =
          items.filter fun item => position item == bound := by
      rw [List.filter_filter]
      refine List.filter_congr fun item _ => ?_
      rw [Bool.eq_iff_iff]
      simp
      omega
    rw [hBelow, hLast] at hSplit
    rw [List.range_succ, List.flatMap_append, List.flatMap_singleton]
    exact (ih.append_right _).trans hSplit

theorem flatMap_findings_perm (config : Config) (tree : BindingTree) :
    ((tree.validate config).2.values.flatMap Entry.findings).Perm (tree.validate config).1 := by
  have hAttached : (tree.validate config).2.values.flatMap Entry.findings =
      (List.range tree.size).flatMap (findingsAt (tree.locatedFindings config)) := by
    rw [validate_snd, ← map_index_slots, List.flatMap_map, ← map_toEntry_slots (Tree.mapPositions _ _),
      slots_mapPositions, Tree.map_map, Tree.values_map, List.flatMap_map]
    rfl
  have hInside : (tree.locatedFindings config).filter (fun one => one.index < tree.size) =
      tree.locatedFindings config :=
    List.filter_eq_self.mpr fun one hOne => decide_eq_true (index_lt_size hOne)
  have hPerm := flatMap_filter_range_perm Located.index tree.size (tree.locatedFindings config)
  rw [hInside] at hPerm
  rw [hAttached, findings_validate, findings]
  have hMapped := hPerm.map Located.finding
  rwa [List.map_flatMap] at hMapped

/-! ## Validation -/

theorem clearFindings_mapPositions (findings : Nat → List Finding) (tree : BindingTree) :
    clearFindings (tree.mapPositions fun index => Entry.withFindings (findings index)) =
      tree.clearFindings := by
  have hSame := Tree.mapPositions_map (Entry.withFindings []) (fun _ entry => entry) tree
  rw [Tree.mapPositions_eq_self _ _ fun _ _ => rfl] at hSame
  rw [clearFindings, clearFindings, Tree.map_mapPositions, hSame]
  rfl

theorem validate_congr {first second : BindingTree}
    (h : first.clearFindings = second.clearFindings) :
    first.validate config = second.validate config := by
  rw [validate, validate, h]

/-- What validation returns and what it attaches are the same findings, and earlier ones do not
matter. -/
structure AttachesFindings (config : Config) (tree : BindingTree) : Prop where
  returned : (tree.validate config).1 =
    (tree.identifierFindings config ++ tree.conflictFindings ++ tree.hierarchyFindings ++
      tree.shadowFindings).map Located.finding
  inside : ∀ located ∈ tree.locatedFindings config, located.index < tree.size
  attached : ∀ place ∈ (tree.validate config).2.places,
    place.value.findings = findingsAt (tree.locatedFindings config) place.value.index
  rearranged : ((tree.validate config).2.values.flatMap Entry.findings).Perm (tree.validate config).1
  /-- Without the findings, the tree is what it was. -/
  unchanged : (tree.validate config).2.clearFindings = tree.clearFindings
  /-- The result is the same after any further change of the findings. -/
  again : ∀ findings : Nat → List Finding,
    validate config ((tree.validate config).2.mapPositions fun index =>
      Entry.withFindings (findings index)) = tree.validate config

/-- Validation of any tree, whatever findings its entries have, attaches what it returns. -/
theorem attachesFindings_validate (config : Config) (tree : BindingTree) :
    AttachesFindings config tree where
  returned := findings_validate config tree
  inside _ := index_lt_size
  attached _ := findings_of_mem_places
  rearranged := flatMap_findings_perm config tree
  unchanged := by
    rw [validate_snd]
    exact clearFindings_mapPositions _ tree
  again findings := by
    refine validate_congr ((clearFindings_mapPositions findings _).trans ?_)
    rw [validate_snd]
    exact clearFindings_mapPositions _ tree

end BindingTree

end TemplateBinding
