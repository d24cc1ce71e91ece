import TemplateBinding.Proofs.Scoping

/-!
# Merging scopes

Every field belongs to the nearest scope above it and to no other.  An entry that stops being a
scope hands its fields to the scope above it, where they stand right after the entry itself; an
entry that becomes a scope takes them from there.  Nothing else changes.
-/
namespace TemplateBinding
set_option autoImplicit false

open BindingTree (Slot)

namespace BindingTree

variable {tree : BindingTree} {place scope : Place Slot} {slot : Slot} {kind : Kind}
  {forest : Forest Slot}

/-! ## What stands above a place -/

theorem exists_parent (hPlace : place ∈ tree.places) (h : place.above ≠ []) :
    ∃ parent ∈ tree.places, place.above = parent.value :: parent.above ∧
      place ∈ parent.below.places (parent.value :: parent.above) := by
  rcases Tree.place_cases hPlace with rfl | ⟨parent, hParent, hAbove, hRoot⟩
  · exact absurd rfl h
  · obtain ⟨child, hChild, _, hValue⟩ :=
      Forest.exists_place_of_mem_roots (parent.value :: parent.above) hRoot
    have hSame : place = child := place_eq_of_index_eq hPlace
      (Tree.mem_places_of_mem_below hParent hChild) (congrArg Slot.index hValue.symm)
    exact ⟨parent, hParent, hAbove, hSame ▸ hChild⟩

theorem exists_outer {front back : List Slot} (hPlace : place ∈ tree.places)
    (h : place.above = front ++ slot :: back) :
    ∃ outer ∈ tree.places, outer.value = slot ∧ outer.above = back ∧
      place ∈ outer.below.places (slot :: back) := by
  -- By induction on what stands between the two: a step goes up to the parent.
  induction front generalizing place with
  | nil =>
    obtain ⟨parent, hParent, hAbove, hBelow⟩ := exists_parent hPlace (by rw [h]; simp)
    rw [h, List.nil_append, List.cons.injEq] at hAbove
    obtain ⟨rfl, rfl⟩ := hAbove
    exact ⟨parent, hParent, rfl, rfl, hBelow⟩
  | cons first front ih =>
    obtain ⟨parent, hParent, hAbove, hBelow⟩ := exists_parent hPlace (by rw [h]; simp)
    rw [h, List.cons_append, List.cons.injEq] at hAbove
    obtain ⟨outer, hOuter, hValue, hBack, hInside⟩ := ih hParent hAbove.2.symm
    exact ⟨outer, hOuter, hValue, hBack, Forest.mem_places_of_mem_below hInside hBelow⟩

theorem below_map_liftAt (edit : Entry → Entry) (hPlace : place ∈ tree.places) :
    place.below.map (Slot.liftAt edit place.value.index) = place.below :=
  Forest.map_id_of_forall _ _ fun _ hSlot =>
    Slot.liftAt_of_ne (Nat.ne_of_gt (index_lt_of_mem_below hPlace hSlot))

theorem index_lt_of_mem_above (hPlace : place ∈ tree.places) (h : slot ∈ place.above) :
    slot.index < place.value.index := by
  obtain ⟨front, back, hAbove⟩ := List.append_of_mem h
  obtain ⟨outer, hOuter, rfl, _, hBelow⟩ := exists_outer hPlace hAbove
  refine index_lt_of_mem_below hOuter ?_
  rw [← Forest.map_value_places]
  exact List.mem_map_of_mem hBelow

/-! ## The scope of a field -/

theorem exists_place_of_mem_members (h : slot ∈ members forest) :
    ∃ inner ∈ forest.places [], inner.value = slot ∧
      ∀ above ∈ inner.above, above.isScope = false := by
  obtain ⟨inner, hInner, hValue, _, hMembers⟩ := mem_members_iff.mp h
  exact ⟨inner, hInner, hValue, fun above hAbove => Entry.isScope_of_kind? (hMembers above hAbove)⟩

theorem exists_place_of_mem_fields (hScope : scope ∈ tree.scopes) (h : slot ∈ scope.members) :
    ∃ place ∈ tree.places, place.value = slot ∧
      place.above.find? (fun above => above.isScope) = some scope.value := by
  obtain ⟨hPlace, hOpens⟩ := mem_scopes_iff.mp hScope
  obtain ⟨inner, hInner, hValue, hPlain⟩ := exists_place_of_mem_members h
  exact ⟨_, Tree.under_mem_places hPlace hInner, hValue, find?_above_under hOpens hPlain⟩

/-- A field belongs to one scope only. -/
theorem eq_of_mem_members {other : Place Slot} (hScope : scope ∈ tree.scopes)
    (hOther : other ∈ tree.scopes) (h : slot ∈ scope.members) (hSlot : slot ∈ other.members) :
    scope = other := by
  obtain ⟨place, hPlace, hValue, hFind⟩ := exists_place_of_mem_fields hScope h
  obtain ⟨again, hAgain, hSame, hFound⟩ := exists_place_of_mem_fields hOther hSlot
  have hPlaces : place = again :=
    place_eq_of_index_eq hPlace hAgain (congrArg Slot.index (hValue.trans hSame.symm))
  rw [hPlaces, hFound, Option.some_inj] at hFind
  exact place_eq_of_index_eq (mem_scopes_iff.mp hScope).1 (mem_scopes_iff.mp hOther).1
    (congrArg Slot.index hFind.symm)

/-! ## A new kind among the fields -/

theorem members_append (first second : Forest Slot) :
    members (first ++ second) = members first ++ members second := by
  induction first with
  | nil => rfl
  | cons top below rest _ hRest =>
    rw [Forest.cons_append, members, members, hRest]
    split <;> simp

theorem map_retype_of_forall_ne {index : Nat} (h : ∀ slot ∈ forest.values, slot.index ≠ index) :
    forest.map (Slot.retype index kind) = forest :=
  Forest.map_id_of_forall _ _ fun slot hSlot => Slot.retype_of_ne (h slot hSlot)

theorem members_cons_of_kind? {top : Slot} {below rest : Forest Slot} (h : top.kind? = some kind)
    (hLeaf : kind ≠ .leaf) :
    members (.cons top below rest) =
      top :: ((if kind.opensScope then [] else members below) ++ members rest) := by
  rw [members, h]
  cases kind with
  | leaf => exact absurd rfl hLeaf
  | member => rfl
  | element => rfl
  | component => rfl

/-- The fields around an entry below plain fields do not depend on its kind, and its own fields are
among them unless it is a scope. -/
theorem exists_members_map_retype {inner : Place Slot} (hInner : inner ∈ forest.places [])
    (hPlain : ∀ above ∈ inner.above, above.kind? = some .member)
    (hNodup : (forest.values.map fun slot => slot.index).Nodup)
    (hBound : inner.value.binding.isSome) :
    ∃ before after, ∀ kind, kind ≠ .leaf →
      members (forest.map (Slot.retype inner.value.index kind)) =
        before ++ inner.value.withKind kind ::
          ((if kind.opensScope then [] else members inner.below) ++ after) := by
  induction forest generalizing inner with
  | nil => cases hInner
  | cons top below rest hBelow hRest =>
    rw [Forest.values, List.map_cons, List.map_append, List.nodup_cons, List.nodup_append,
      List.mem_append, not_or] at hNodup
    obtain ⟨⟨hTopBelow, hTopRest⟩, hNodupBelow, hNodupRest, hApart⟩ := hNodup
    have hIndex {forest : Forest Slot} {inner : Place Slot} (h : inner ∈ forest.places []) :
        inner.value.index ∈ forest.values.map fun slot => slot.index := by
      rw [← Forest.map_value_places []]
      exact List.mem_map_of_mem (List.mem_map_of_mem h)
    -- The entry is the first root, or it lies below it, or to its right.
    rcases Forest.mem_places_cons_iff.mp hInner with rfl | ⟨deep, hDeep, rfl⟩ | hInner
    · refine ⟨[], members rest, fun kind hKind => ?_⟩
      rw [Forest.map, Slot.retype_of_eq rfl, map_retype_of_forall_ne, map_retype_of_forall_ne]
      · exact members_cons_of_kind? (Slot.kind?_withKind hBound) hKind
      · exact fun slot hSlot hSame => hTopRest (hSame ▸ List.mem_map_of_mem hSlot)
      · exact fun slot hSlot hSame => hTopBelow (hSame ▸ List.mem_map_of_mem hSlot)
    · have hTop : top.kind? = some .member :=
        hPlain top (List.mem_append_right _ (List.mem_singleton_self top))
      obtain ⟨before, after, hFields⟩ := hBelow hDeep
        (fun above hAbove => hPlain above (List.mem_append_left _ hAbove)) hNodupBelow hBound
      refine ⟨top :: before, after ++ members rest, fun kind hKind => ?_⟩
      have hOther : top.index ≠ deep.value.index := fun hSame => hTopBelow (hSame ▸ hIndex hDeep)
      have hRest : rest.map (Slot.retype deep.value.index kind) = rest :=
        map_retype_of_forall_ne fun slot hSlot hSame =>
          hApart _ (hIndex hDeep) _ (List.mem_map_of_mem hSlot) hSame.symm
      have hBelow := hFields kind hKind
      rw [Place.under, Forest.map, Slot.retype_of_ne hOther, hRest,
        members_cons_of_kind? hTop (by decide), if_neg (by decide), hBelow]
      simp only [List.append_assoc, List.cons_append]
    · obtain ⟨before, after, hFields⟩ := hRest hInner hPlain hNodupRest hBound
      refine ⟨members (.cons top below .nil) ++ before, after, fun kind hKind => ?_⟩
      have hOther : top.index ≠ inner.value.index := fun hSame => hTopRest (hSame ▸ hIndex hInner)
      have hBelow : below.map (Slot.retype inner.value.index kind) = below :=
        map_retype_of_forall_ne fun slot hSlot hSame =>
          hApart _ (List.mem_map_of_mem hSlot) _ (hIndex hInner) hSame
      have hSplit (rest : Forest Slot) : members (.cons top below rest) =
          members (.cons top below .nil) ++ members rest :=
        members_append (.cons top below .nil) rest
      rw [Forest.map, Slot.retype_of_ne hOther, hBelow, hSplit, hFields kind hKind,
        List.append_assoc]

/-! ## The scope around an entry -/

theorem kind?_eq_member (h : slot.isScope = false) (hLeaf : slot.kind? ≠ some .leaf) :
    slot.kind? = some .member := by
  rw [Entry.isScope] at h
  cases hKind : slot.kind? with
  | none =>
    rw [hKind] at h
    cases h
  | some kind =>
    rw [hKind] at h hLeaf
    cases kind with
    | member => rfl
    | element => cases h
    | component => cases h
    | leaf => exact absurd rfl hLeaf

/-- The scope in which an entry is a field, and the fields before and after it.  The kind of the
entry decides only whether its own fields stand between them. -/
structure Surrounds (tree : BindingTree) (scope place : Place Slot) (source : Kind)
    (before after : List Slot) : Prop where
  isPlace : place ∈ tree.places
  kind? : place.value.kind? = some source
  isField : source ≠ .leaf
  isScope : scope ∈ tree.scopes
  nearest : scope.value = place.scope
  fields : ∀ kind, kind ≠ .leaf →
    (scope.map (Slot.retype place.value.index kind)).members =
      before ++ place.value.withKind kind ::
        ((if kind.opensScope then [] else place.members) ++ after)

/-- The scope around an entry is a place of the tree, with plain entries between the two. -/
theorem exists_scope (hRoot : tree.root.binding = none) (hPlace : place ∈ tree.places)
    (hBound : place.value.binding.isSome) :
    ∃ scope ∈ tree.scopes, scope.value = place.scope ∧ ∃ inner ∈ scope.below.places [],
      inner.under (scope.value :: scope.above) = place ∧
        ∀ above ∈ inner.above, above.isScope = false := by
  have hFind := find?_above_eq_scope hRoot hPlace hBound
  obtain ⟨hOpens, front, back, hSplit, hPlain⟩ := List.find?_eq_some_iff_append.mp hFind
  obtain ⟨scope, hScope, hValue, rfl, hInside⟩ := exists_outer hPlace hSplit
  rw [← hValue, ← List.nil_append (scope.value :: scope.above), Forest.places_append] at hInside
  obtain ⟨inner, hInner, hUnder⟩ := List.mem_map.mp hInside
  have hAboves : inner.above ++ scope.value :: scope.above = place.above :=
    congrArg Place.above hUnder
  have hFront : inner.above = front := by
    rw [hSplit, hValue] at hAboves
    exact List.append_cancel_right hAboves
  refine ⟨scope, mem_scopes_iff.mpr ⟨hScope, hValue ▸ hOpens⟩, hValue, inner, hInner, hUnder, ?_⟩
  intro above hAbove
  rw [hFront] at hAbove
  simpa using hPlain above hAbove

theorem exists_surrounds {source : Kind} (hRoot : tree.root.binding = none)
    (hPlace : place ∈ tree.places) (hKind : place.value.kind? = some source)
    (hField : source ≠ .leaf) (hAbove : ∀ slot ∈ place.above, slot.kind? ≠ some .leaf) :
    ∃ scope before after, Surrounds tree scope place source before after := by
  have hBound := Entry.isSome_binding_of_kind? hKind
  obtain ⟨scope, hScope, hValue, inner, hInner, rfl, hPlain⟩ := exists_scope hRoot hPlace hBound
  have hMembers : ∀ above ∈ inner.above, above.kind? = some .member := fun above hInner =>
    kind?_eq_member (hPlain above hInner) (hAbove above (List.mem_append_left _ hInner))
  have hNodup : (scope.below.values.map fun slot => slot.index).Nodup := by
    have hPairwise := pairwise_index_values (mem_scopes_iff.mp hScope).1
    rw [Place.values, List.map_cons, List.pairwise_cons] at hPairwise
    exact hPairwise.2.imp Nat.ne_of_lt
  obtain ⟨before, after, hFields⟩ := exists_members_map_retype hInner hMembers hNodup hBound
  exact ⟨scope, before, after, hPlace, hKind, hField, hScope, hValue, hFields⟩

theorem Slot.withKind_of_kind? (h : slot.kind? = some kind) : slot.withKind kind = slot := by
  obtain ⟨binding, hBinding, rfl⟩ := Entry.binding_of_kind? h
  rw [Slot.withKind, Entry.withKind, hBinding, Option.map_some, ← hBinding]

theorem Slot.name?_withKind (h : slot.kind? ≠ some .leaf) (hKind : kind ≠ .leaf) :
    (slot.withKind kind).name? = slot.name? := by
  cases hBinding : slot.binding with
  | none => rw [Slot.withKind, Entry.withKind_of_binding_eq_none hBinding]
  | some binding =>
    have hSource : binding.kind ≠ .leaf := by
      rw [Entry.kind?_of_binding hBinding] at h
      exact fun hLeaf => h (congrArg some hLeaf)
    have hNew : (slot.withKind kind).binding = some { binding with kind } := by
      rw [Slot.withKind, Entry.withKind, hBinding]
      rfl
    rw [Entry.name?_of_binding hBinding hSource, Entry.name?_of_binding hNew hKind]

namespace Surrounds

variable {before after : List Slot} {source : Kind}

theorem name?_withKind (h : Surrounds tree scope place source before after) (hKind : kind ≠ .leaf) :
    (place.value.withKind kind).name? = place.value.name? :=
  Slot.name?_withKind (Entry.kind?_ne_leaf h.kind? h.isField) hKind

theorem mem_scopes (h : Surrounds tree scope place source before after)
    (hOpens : source.opensScope = true) : place ∈ tree.scopes :=
  mem_scopes_iff.mpr ⟨h.isPlace, (Entry.isScope_of_kind? h.kind?).trans hOpens⟩

theorem mem_scopes_withKind (h : Surrounds tree scope place source before after)
    (hRoot : tree.root.binding = none) (kind : Kind) :
    scope.map (Slot.retype place.value.index kind) ∈
      (tree.withKind place.value.index kind).scopes := by
  obtain ⟨hScope, hOpens⟩ := mem_scopes_iff.mp h.isScope
  have hAbove := (scope_mem_above hRoot h.isPlace (Entry.isSome_binding_of_kind? h.kind?)).1
  rw [← h.nearest] at hAbove
  refine mem_scopes_iff.mpr ⟨?_, ?_⟩
  · rw [places_withKind]
    exact List.mem_map_of_mem hScope
  · rw [Place.map, Slot.retype_of_ne (Nat.ne_of_lt (index_lt_of_mem_above h.isPlace hAbove))]
    exact hOpens

/-! ### Fields -/

theorem members (h : Surrounds tree scope place source before after) :
    scope.members = before ++ place.value ::
      ((if source.opensScope then [] else place.members) ++ after) := by
  have hSame : scope.below.map (Slot.retype place.value.index source) = scope.below := by
    refine Forest.map_id_of_forall _ _ fun slot hSlot => ?_
    rw [Slot.retype]
    split
    · rename_i hIndex
      have hIn := (Tree.values_sublist_of_mem_places (mem_scopes_iff.mp h.isScope).1).subset
        (List.mem_cons_of_mem _ hSlot)
      rw [slot_eq_of_index_eq hIn (Tree.mem_values_of_mem_places h.isPlace) hIndex]
      exact Slot.withKind_of_kind? h.kind?
    · rfl
  have hFields : BindingTree.members (scope.below.map (Slot.retype place.value.index source)) = _ :=
    h.fields source h.isField
  rw [hSame, Slot.withKind_of_kind? h.kind?] at hFields
  exact hFields

theorem mem_members (h : Surrounds tree scope place source before after)
    (hSlot : slot ∈ before ++ place.value :: after) : slot ∈ scope.members := by
  rw [h.members]
  rcases List.mem_append.mp hSlot with hSlot | hSlot
  · exact List.mem_append_left _ hSlot
  · rcases List.mem_cons.mp hSlot with rfl | hSlot
    · exact List.mem_append_right _ List.mem_cons_self
    · exact List.mem_append_right _ (List.mem_cons_of_mem _ (List.mem_append_right _ hSlot))

/-- With another kind of the entry, the scope has the fields around the entry, and those of the
entry unless it opens a scope. -/
theorem mem_cases (h : Surrounds tree scope place source before after) (hKind : kind ≠ .leaf)
    (hSlot : slot ∈ (scope.map (Slot.retype place.value.index kind)).members) :
    (∃ old ∈ before ++ place.value :: after, old.node = slot.node ∧ old.name? = slot.name?) ∨
      kind.opensScope = false ∧ slot ∈ place.members := by
  rw [h.fields kind hKind, List.mem_append, List.mem_cons, List.mem_append] at hSlot
  rcases hSlot with hBefore | rfl | hInside | hAfter
  · exact .inl ⟨slot, List.mem_append_left _ hBefore, rfl, rfl⟩
  · exact .inl ⟨place.value, List.mem_append_right _ List.mem_cons_self, rfl,
      (h.name?_withKind hKind).symm⟩
  · cases hOpens : kind.opensScope with
    | true =>
      rw [hOpens, if_pos rfl] at hInside
      cases hInside
    | false =>
      rw [hOpens, if_neg (by decide)] at hInside
      exact .inr ⟨rfl, hInside⟩
  · exact .inl ⟨slot, List.mem_append_right _ (List.mem_cons_of_mem _ hAfter), rfl, rfl⟩

theorem exists_mem_retype (h : Surrounds tree scope place source before after)
    (hKind : kind ≠ .leaf) (hSlot : slot ∈ before ++ place.value :: after) :
    ∃ changed ∈ (scope.map (Slot.retype place.value.index kind)).members,
      changed.node = slot.node ∧ changed.name? = slot.name? := by
  rw [h.fields kind hKind]
  rcases List.mem_append.mp hSlot with hSlot | hSlot
  · exact ⟨slot, List.mem_append_left _ hSlot, rfl, rfl⟩
  · rcases List.mem_cons.mp hSlot with rfl | hSlot
    · exact ⟨place.value.withKind kind, List.mem_append_right _ List.mem_cons_self, rfl,
        h.name?_withKind hKind⟩
    · refine ⟨slot, List.mem_append_right _ (List.mem_cons_of_mem _ ?_), rfl, rfl⟩
      exact List.mem_append_right _ hSlot

theorem uses_retype (h : Surrounds tree scope place source before after) (hKind : kind ≠ .leaf)
    (name : String) :
    (scope.map (Slot.retype place.value.index kind)).uses name =
      ((before ++ place.value :: after).countP fun slot => slot.name? == some name) +
        if kind.opensScope then 0 else place.uses name := by
  rw [Place.uses_eq_countP, Place.uses_eq_countP, h.fields kind hKind]
  simp only [List.countP_append, List.countP_cons, h.name?_withKind hKind]
  cases kind.opensScope with
  | true =>
    simp only [if_true, List.countP_nil]
    omega
  | false =>
    simp only [Bool.false_eq_true, if_false]
    omega

theorem uses (h : Surrounds tree scope place source before after) (name : String) :
    scope.uses name =
      ((before ++ place.value :: after).countP fun slot => slot.name? == some name) +
        if source.opensScope then 0 else place.uses name := by
  rw [← h.uses_retype h.isField name, Place.uses_eq_countP, Place.uses_eq_countP,
    h.fields source h.isField, h.members, Slot.withKind_of_kind? h.kind?]

end Surrounds

end BindingTree

end TemplateBinding
