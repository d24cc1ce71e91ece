import TemplateBinding.Proofs.Duplicates
import TemplateBinding.Proofs.Retyping

/-!
# Fields and enclosing scopes

The fields of a scope are slots below it whose kinds are no leaves.  A nested scope shields the
scopes around it: what changes below the nested scope does not change their fields.
-/
namespace TemplateBinding
set_option autoImplicit false

open BindingTree (Slot)

namespace Kind

theorem nameable_iff {kind : Kind} : kind.nameable = true ↔ kind ≠ .leaf := by
  cases kind <;> decide

end Kind

namespace Entry

variable {entry : Entry} {binding : Binding}

theorem kind?_of_binding (h : entry.binding = some binding) :
    entry.kind? = some binding.kind := by rw [kind?, h, Option.map_some]

theorem binding_of_kind? {kind : Kind} (h : entry.kind? = some kind) :
    ∃ binding, entry.binding = some binding ∧ binding.kind = kind :=
  Option.map_eq_some_iff.mp h

theorem isSome_binding_of_kind? {kind : Kind} (h : entry.kind? = some kind) :
    entry.binding.isSome := by
  obtain ⟨binding, hBinding, _⟩ := binding_of_kind? h
  rw [hBinding, Option.isSome_some]

theorem kind?_ne_leaf {kind : Kind} (h : entry.kind? = some kind) (hKind : kind ≠ .leaf) :
    entry.kind? ≠ some .leaf := by
  rw [h]
  exact fun hLeaf => hKind (Option.some.inj hLeaf)

theorem isScope_of_kind? {kind : Kind} (h : entry.kind? = some kind) :
    entry.isScope = kind.opensScope := by
  rw [isScope, h, Option.all_some]

theorem name?_of_binding (h : entry.binding = some binding) (hKind : binding.kind ≠ .leaf) :
    entry.name? = some binding.name := by
  rw [name?, h, Option.bind_some, Binding.effectiveName, if_pos (Kind.nameable_iff.mpr hKind)]

/-- The entry has a name, so the scope around it may list it as a field. -/
def isField (entry : Entry) : Bool := entry.kind?.any Kind.nameable

theorem isField_of_kind? {kind : Kind} (h : entry.kind? = some kind) :
    entry.isField = kind.nameable := by rw [isField, h, Option.any_some]

theorem isField_iff :
    entry.isField = true ↔ ∃ binding, entry.binding = some binding ∧ binding.kind ≠ .leaf := by
  rw [isField, Option.any_eq_true]
  constructor
  · rintro ⟨kind, hKind, hField⟩
    obtain ⟨binding, hBinding, rfl⟩ := binding_of_kind? hKind
    exact ⟨binding, hBinding, Kind.nameable_iff.mp hField⟩
  · rintro ⟨binding, hBinding, hLeaf⟩
    exact ⟨binding.kind, kind?_of_binding hBinding, Kind.nameable_iff.mpr hLeaf⟩

theorem isScope_of_binding_eq_none (h : entry.binding = none) : entry.isScope = true := by
  rw [isScope, kind?, h]
  rfl

theorem isScope_of_binding (h : entry.binding = some binding) :
    entry.isScope = binding.kind.opensScope :=
  isScope_of_kind? (kind?_of_binding h)

end Entry

namespace BindingTree

variable {slot : Slot} {kind : Kind}

/-! ## Fields -/

theorem mem_members_cons_iff {top : Slot} {below rest : Forest Slot} :
    slot ∈ members (.cons top below rest) ↔ slot = top ∧ top.isField = true ∨
      top.kind? = some .member ∧ slot ∈ members below ∨ slot ∈ members rest := by
  rw [members]
  cases hKind : top.kind? with
  | none => simp [Entry.isField, hKind]
  | some kind => cases kind <;> simp [Entry.isField_of_kind? hKind, Kind.nameable]

theorem mem_members {forest : Forest Slot} (h : slot ∈ members forest) :
    slot ∈ forest.values ∧ ∃ binding, slot.binding = some binding ∧ binding.kind ≠ .leaf := by
  induction forest with
  | nil => cases h
  | cons top below rest hBelow hRest =>
    rw [Forest.mem_values_cons]
    rcases mem_members_cons_iff.mp h with ⟨rfl, hField⟩ | ⟨_, h⟩ | h
    · exact ⟨.inl rfl, Entry.isField_iff.mp hField⟩
    · exact ⟨.inr (.inl (hBelow h).1), (hBelow h).2⟩
    · exact ⟨.inr (.inr (hRest h).1), (hRest h).2⟩

theorem members_sublist_values (forest : Forest Slot) :
    (members forest).Sublist forest.values := by
  induction forest with
  | nil => exact List.Sublist.refl _
  | cons top below rest hBelow hRest =>
    have hSkip := hRest.trans (List.sublist_append_right below.values rest.values)
    rw [members, Forest.values]
    split
    case h_1 => exact .cons_cons _ (hBelow.append hRest)
    case h_2 => exact .cons_cons _ hSkip
    case h_3 => exact .cons_cons _ hSkip
    case h_4 => exact .cons _ hSkip
    case h_5 => exact .cons _ hSkip

/-- The fields of a forest are the named slots that have only members above them. -/
theorem mem_members_iff {forest : Forest Slot} :
    slot ∈ members forest ↔ ∃ inner ∈ forest.places [], inner.value = slot ∧ slot.isField = true ∧
      ∀ above ∈ inner.above, above.kind? = some .member := by
  induction forest with
  | nil => simp [members, Forest.places]
  | cons top below rest hBelow hRest =>
    rw [mem_members_cons_iff, hBelow, hRest]
    constructor
    · rintro (⟨rfl, hField⟩ | ⟨hTop, inner, hInner, hValue, hField, hPlain⟩ | ⟨inner, hInner, hSame⟩)
      · exact ⟨_, Forest.mem_places_cons_iff.mpr (.inl rfl), rfl, hField, fun _ h => by cases h⟩
      · refine ⟨inner.under [top], Forest.mem_places_cons_iff.mpr (.inr (.inl ⟨inner, hInner, rfl⟩)),
          hValue, hField, fun above hAbove => ?_⟩
        rcases List.mem_append.mp hAbove with hAbove | hAbove
        · exact hPlain above hAbove
        · rw [List.mem_singleton.mp hAbove, hTop]
      · exact ⟨inner, Forest.mem_places_cons_iff.mpr (.inr (.inr hInner)), hSame⟩
    · rintro ⟨place, hPlace, hValue, hField, hPlain⟩
      rcases Forest.mem_places_cons_iff.mp hPlace with rfl | ⟨inner, hInner, rfl⟩ | hPlace
      · obtain rfl : top = slot := hValue
        exact .inl ⟨rfl, hField⟩
      · have hTop := hPlain top (List.mem_append_right _ (List.mem_singleton_self top))
        exact .inr (.inl ⟨hTop, inner, hInner, hValue, hField, fun above hAbove =>
          hPlain above (List.mem_append_left _ hAbove)⟩)
      · exact .inr (.inr ⟨place, hPlace, hValue, hField, hPlain⟩)

theorem members_map_of_kind?_eq (edit : Slot → Slot) (forest : Forest Slot)
    (h : ∀ slot, (edit slot).kind? = slot.kind?) :
    members (forest.map edit) = (members forest).map edit := by
  induction forest with
  | nil => rfl
  | cons top below rest hBelow hRest =>
    rw [Forest.map, members, members, h top, hBelow, hRest]
    split <;> simp

/-- An edit below a nested scope does not change the fields. -/
theorem members_map_of_shielded {edit : Slot → Slot} (forest : Forest Slot)
    (h : ∀ place ∈ forest.places [], edit place.value ≠ place.value →
      ∃ slot ∈ place.above, slot.isScope) :
    members (forest.map edit) = members forest := by
  induction forest with
  | nil => rfl
  | cons top below rest hBelow hRest =>
    have hTop : edit top = top := by
      by_contra hEdited
      obtain ⟨_, hNone, _⟩ := h _ (Forest.mem_places_cons_iff.mpr (.inl rfl)) hEdited
      cases hNone
    have hRest := hRest fun place hPlace =>
      h place (Forest.mem_places_cons_iff.mpr (.inr (.inr hPlace)))
    -- A plain field shields nothing, so the scope that the hypothesis gives lies below it.
    have hBelow (hMember : top.isScope = false) : members (below.map edit) = members below := by
      refine hBelow fun place hPlace hEdited => ?_
      obtain ⟨scope, hScope, hOpens⟩ :=
        h _ (Forest.mem_places_cons_iff.mpr (.inr (.inl ⟨place, hPlace, rfl⟩))) hEdited
      rcases List.mem_append.mp hScope with hScope | hScope
      · exact ⟨scope, hScope, hOpens⟩
      · rw [List.mem_singleton.mp hScope, hMember] at hOpens
        cases hOpens
    rw [Forest.map, hTop, members, members]
    split
    case h_1 hKind =>
      rw [hBelow (by rw [Entry.isScope, hKind]; rfl), hRest]
    all_goals rw [hRest]

variable {tree : BindingTree} {place scope : Place Slot}

/-! ## Enclosing scopes -/

theorem mem_scopes_iff : place ∈ tree.scopes ↔ place ∈ tree.places ∧ place.value.isScope :=
  List.mem_filter

theorem mem_slots_of_mem_members (hPlace : place ∈ tree.places)
    (h : slot ∈ place.members) : slot ∈ tree.slots.values :=
  (Tree.values_sublist_of_mem_places hPlace).subset (List.mem_cons_of_mem _ (mem_members h).1)

theorem root_mem_above (hPlace : place ∈ tree.places) (h : place.value.index ≠ 0) :
    tree.slots.root ∈ place.above := by
  rcases List.mem_cons.mp hPlace with rfl | hPlace
  · exact absurd rfl h
  · exact Forest.subset_above_of_mem_places hPlace List.mem_cons_self

theorem index_ne_zero (hRoot : tree.root.binding = none) (hPlace : place ∈ tree.places)
    (hBound : place.value.binding.isSome) : place.value.index ≠ 0 := by
  intro hIndex
  have hSame := eq_top_of_index_eq_zero hPlace hIndex
  have hNone : place.value.binding = none := hSame ▸ hRoot
  rw [hNone] at hBound
  cases hBound

theorem find?_above_under {inner : Place Slot} (hOpens : place.value.isScope = true)
    (hPlain : ∀ slot ∈ inner.above, slot.isScope = false) :
    (inner.under (place.value :: place.above)).above.find? (fun slot => slot.isScope) =
      some place.value := by
  have hInside : inner.above.find? (fun slot => slot.isScope) = none :=
    List.find?_eq_none.mpr fun slot hSlot => Bool.eq_false_iff.mp (hPlain slot hSlot)
  rw [Place.under, List.find?_append, hInside, Option.none_or]
  exact List.find?_cons_of_pos hOpens

theorem find?_above_eq_scope (hRoot : tree.root.binding = none) (hPlace : place ∈ tree.places)
    (hBound : place.value.binding.isSome) :
    place.above.find? (fun slot => slot.isScope) = some place.scope := by
  have hAbove := root_mem_above hPlace (index_ne_zero hRoot hPlace hBound)
  have hScope : tree.slots.root.isScope = true := Entry.isScope_of_binding_eq_none hRoot
  have hSome : (place.above.find? fun slot => slot.isScope).isSome :=
    List.find?_isSome.mpr ⟨tree.slots.root, hAbove, hScope⟩
  obtain ⟨found, hFound⟩ := Option.isSome_iff_exists.mp hSome
  rw [Place.scope, hFound, Option.getD_some]

theorem scope_mem_above (hRoot : tree.root.binding = none) (hPlace : place ∈ tree.places)
    (hBound : place.value.binding.isSome) :
    place.scope ∈ place.above ∧ place.scope.isScope = true := by
  have hFind := find?_above_eq_scope hRoot hPlace hBound
  have hOpens := List.find?_some hFind
  exact ⟨List.mem_of_find?_eq_some hFind, hOpens⟩

theorem exists_place_of_mem_above {slot : Slot} (hPlace : place ∈ tree.places)
    (hSlot : slot ∈ place.above) : ∃ above ∈ tree.places, above.value = slot := by
  have hValue := Tree.mem_values_of_mem_above hPlace hSlot
  rw [← Tree.map_value_places] at hValue
  exact List.mem_map.mp hValue

/-- A scope that is not the one around an edited entry keeps its fields. -/
theorem members_map_of_scope_ne {edit : Slot → Slot} (hPlace : place ∈ tree.places)
    (hScope : scope ∈ tree.scopes) (h : scope.value.index ≠ place.scope.index)
    (hEdit : ∀ slot, slot.index ≠ place.value.index → edit slot = slot) :
    (scope.map edit).members = scope.members := by
  obtain ⟨hScopePlace, hOpens⟩ := mem_scopes_iff.mp hScope
  refine members_map_of_shielded scope.below fun inner hInner hEdited => ?_
  by_contra hNone
  have hIndex : inner.value.index = place.value.index := by
    by_contra hOther
    exact hEdited (hEdit _ hOther)
  have hUnder := Tree.under_mem_places hScopePlace hInner
  have hSame := place_eq_of_index_eq hPlace hUnder hIndex.symm
  have hFind : place.above.find? (fun slot => slot.isScope) = some scope.value := by
    rw [hSame]
    refine find?_above_under hOpens fun slot hSlot => Bool.eq_false_iff.mpr fun hOpens => ?_
    exact hNone ⟨slot, hSlot, hOpens⟩
  rw [Place.scope, hFind, Option.getD_some] at h
  exact h rfl

theorem members_map_retype_of_ne (hPlace : place ∈ tree.places) (hScope : scope ∈ tree.scopes)
    (h : scope.value.index ≠ place.scope.index) :
    (scope.map (Slot.retype place.value.index kind)).members = scope.members :=
  members_map_of_scope_ne hPlace hScope h fun _ => Slot.retype_of_ne

end BindingTree

end TemplateBinding
