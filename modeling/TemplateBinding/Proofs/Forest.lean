import Mathlib.Data.List.Basic
import Mathlib.Data.List.Nodup
import TemplateBinding.Forest

/-!
# Maps and places of forests

Mapping with positions composes, and an edit at one position is such a map.  The places of a mapped
forest are the mapped places.  The places found below a place of a forest are places of that forest
too, and positions tell places apart.
-/
namespace TemplateBinding
set_option autoImplicit false

universe u v w

namespace Place

variable {α : Type u} {β : Type v}

def map (f : α → β) (place : Place α) : Place β :=
  ⟨place.above.map f, f place.value, place.below.map f⟩

def values (place : Place α) : List α := place.value :: place.below.values

def under (above : List α) (place : Place α) : Place α :=
  { place with above := place.above ++ above }

end Place

namespace Forest

variable {α : Type u} {β : Type v} {γ : Type w}

theorem mem_values_cons {value other : α} {below rest : Forest α} :
    other ∈ (cons value below rest).values ↔
      other = value ∨ other ∈ below.values ∨ other ∈ rest.values := by
  rw [values, List.mem_cons, List.mem_append]

theorem forall_mem_values_cons {property : α → Prop} {value : α} {below rest : Forest α} :
    (∀ other ∈ (cons value below rest).values, property other) ↔
      property value ∧ (∀ other ∈ below.values, property other) ∧
        ∀ other ∈ rest.values, property other := by
  rw [values, List.forall_mem_cons, List.forall_mem_append]

/-! ## Maps -/

theorem map_map (f : α → β) (g : β → γ) (forest : Forest α) :
    (forest.map f).map g = forest.map fun value => g (f value) := by
  induction forest with
  | nil => rfl
  | cons value below rest hBelow hRest => simp only [map, hBelow, hRest]

theorem map_congr (f g : α → β) (forest : Forest α)
    (h : ∀ value ∈ forest.values, f value = g value) : forest.map f = forest.map g := by
  induction forest with
  | nil => rfl
  | cons value below rest hBelow hRest =>
    obtain ⟨hValue, hInBelow, hInRest⟩ := forall_mem_values_cons.mp h
    rw [map, map, hValue, hBelow hInBelow, hRest hInRest]

theorem map_id_of_forall (f : α → α) (forest : Forest α)
    (h : ∀ value ∈ forest.values, f value = value) : forest.map f = forest := by
  have hId : forest.map (fun value => value) = forest := by
    clear h
    induction forest with
    | nil => rfl
    | cons value below rest hBelow hRest => rw [map, hBelow, hRest]
  exact (map_congr f _ forest h).trans hId

theorem size_map (f : α → β) (forest : Forest α) : (forest.map f).size = forest.size := by
  rw [← length_values, values_map, List.length_map, length_values]

theorem map_append (f : α → β) (first second : Forest α) :
    (first ++ second).map f = first.map f ++ second.map f := by
  induction first with
  | nil => rfl
  | cons value below rest _ hRest => simp only [cons_append, map, hRest]

theorem map_mapPositions (f : Nat → α → β) (g : β → γ) (start : Nat) (forest : Forest α) :
    (forest.mapPositions f start).map g =
      forest.mapPositions (fun position value => g (f position value)) start := by
  induction forest generalizing start with
  | nil => rfl
  | cons value below rest hBelow hRest => simp only [mapPositions, map, hBelow, hRest]

theorem mapPositions_map (f : α → β) (g : Nat → β → γ) (start : Nat) (forest : Forest α) :
    (forest.map f).mapPositions g start =
      forest.mapPositions (fun position value => g position (f value)) start := by
  induction forest generalizing start with
  | nil => rfl
  | cons value below rest hBelow hRest => simp only [map, mapPositions, size_map, hBelow, hRest]

theorem mapPositions_mapPositions (f : Nat → α → β) (g : Nat → β → γ) (start : Nat)
    (forest : Forest α) :
    (forest.mapPositions f start).mapPositions g start =
      forest.mapPositions (fun position value => g position (f position value)) start := by
  induction forest generalizing start with
  | nil => rfl
  | cons value below rest hBelow hRest =>
    simp only [mapPositions, size_mapPositions, hBelow, hRest]

theorem values_mapPositions (f : Nat → α → β) (start : Nat) (forest : Forest α) :
    (forest.mapPositions f start).values =
      forest.values.mapIdx fun position value => f (start + position) value := by
  induction forest generalizing start with
  | nil => rfl
  | cons value below rest hBelow hRest =>
    simp only [mapPositions, values, hBelow, hRest, List.mapIdx_cons, List.mapIdx_append,
      length_values, Nat.add_zero]
    congr 2 <;> congr 1 <;> funext position value <;> congr 1 <;> omega

theorem mapPositions_congr {f g : Nat → α → β} {start : Nat} {forest : Forest α}
    (h : ∀ position value, forest.values[position]? = some value →
      f (start + position) value = g (start + position) value) :
    forest.mapPositions f start = forest.mapPositions g start := by
  induction forest generalizing start with
  | nil => rfl
  | cons value below rest hBelow hRest =>
    have hHere : f start value = g start value := h 0 value rfl
    have hInBelow := @hBelow (start + 1) fun position other hOther => by
      rw [Nat.add_assoc, Nat.add_comm 1]
      refine h (position + 1) other ?_
      have hLength := (List.getElem?_eq_some_iff.mp hOther).1
      rw [values, List.getElem?_cons_succ, List.getElem?_append_left hLength, hOther]
    have hInRest := @hRest (start + 1 + below.size) fun position other hOther => by
      rw [show start + 1 + below.size + position = start + (below.size + position + 1) by omega]
      refine h (below.size + position + 1) other ?_
      rw [values, List.getElem?_cons_succ, List.getElem?_append_right (by simp), length_values,
        Nat.add_sub_cancel_left, hOther]
    rw [mapPositions, mapPositions, hHere, hInBelow, hInRest]

theorem mapPositions_append (f : Nat → α → β) (start : Nat) (first second : Forest α) :
    (first ++ second).mapPositions f start =
      first.mapPositions f start ++ second.mapPositions f (start + first.size) := by
  induction first generalizing start with
  | nil => rfl
  | cons value below rest _ hRest =>
    have hSize : start + 1 + below.size + rest.size = start + (below.size + rest.size + 1) := by
      omega
    rw [cons_append, mapPositions, mapPositions, hRest, cons_append, size, hSize]

theorem mapPositions_eq_self (f : Nat → α → α) (start : Nat) (forest : Forest α)
    (h : ∀ position value, start ≤ position → position < start + forest.size →
      f position value = value) : forest.mapPositions f start = forest := by
  induction forest generalizing start with
  | nil => rfl
  | cons value below rest hBelow hRest =>
    simp only [size] at h
    rw [mapPositions, h start value (by omega) (by omega),
      hBelow _ fun position other hLow hHigh => h position other (by omega) (by omega),
      hRest _ fun position other hLow hHigh => h position other (by omega) (by omega)]

theorem modify_eq_mapPositions (edit : α → α) (position start : Nat) (forest : Forest α) :
    forest.modify edit position =
      forest.mapPositions (fun other value => if other = start + position then edit value else value)
        start := by
  induction forest generalizing position start with
  | nil => cases position <;> rfl
  | cons value below rest hBelow hRest =>
    cases position with
    | zero =>
      rw [modify, mapPositions, if_pos (by omega)]
      rw [mapPositions_eq_self _ (start + 1) below fun other _ _ _ => if_neg (by omega)]
      rw [mapPositions_eq_self _ (start + 1 + below.size) rest fun other _ _ _ => if_neg (by omega)]
    | succ position =>
      rw [modify, mapPositions, if_neg (by omega : start ≠ start + (position + 1))]
      split
      · rw [hBelow position (start + 1), show start + 1 + position = start + (position + 1) by omega]
        rw [mapPositions_eq_self _ (start + 1 + below.size) rest fun other _ _ _ => if_neg (by omega)]
      · rw [hRest (position - below.size) (start + 1 + below.size),
          show start + 1 + below.size + (position - below.size) = start + (position + 1) by omega]
        rw [mapPositions_eq_self _ (start + 1) below fun other _ _ _ => if_neg (by omega)]

theorem roots_sublist_values (forest : Forest α) : forest.roots.Sublist forest.values := by
  induction forest with
  | nil => exact List.Sublist.refl _
  | cons value below rest _ hRest =>
    exact List.Sublist.cons_cons _ (hRest.trans (List.sublist_append_right _ _))

theorem roots_append (first second : Forest α) :
    (first ++ second).roots = first.roots ++ second.roots := by
  induction first with
  | nil => rfl
  | cons value below rest _ hRest => rw [cons_append, roots, roots, hRest, List.cons_append]

theorem roots_map (f : α → β) (forest : Forest α) : (forest.map f).roots = forest.roots.map f := by
  induction forest with
  | nil => rfl
  | cons value below rest _ hRest => rw [map, roots, roots, hRest, List.map_cons]

/-! ## Places -/

theorem places_map (f : α → β) (above : List α) (forest : Forest α) :
    (forest.map f).places (above.map f) = (forest.places above).map (Place.map f) := by
  induction forest generalizing above with
  | nil => rfl
  | cons value below rest hBelow hRest =>
    simp only [map, places, List.map_cons, List.map_append, ← hRest above]
    rw [← List.map_cons (f := f) (a := value) (l := above), hBelow (value :: above)]
    rfl

theorem places_concat (above : List α) (first second : Forest α) :
    (first ++ second).places above = first.places above ++ second.places above := by
  induction first with
  | nil => rfl
  | cons value below rest _ hRest =>
    rw [cons_append, places, places, hRest, List.cons_append, List.append_assoc]

theorem places_append (inner outer : List α) (forest : Forest α) :
    forest.places (inner ++ outer) = (forest.places inner).map (Place.under outer) := by
  induction forest generalizing inner with
  | nil => rfl
  | cons value below rest hBelow hRest =>
    have hUnder := hBelow (value :: inner)
    rw [List.cons_append] at hUnder
    simp only [places, List.map_cons, List.map_append, hRest inner, hUnder]
    rfl

theorem mem_places_cons_iff {value : α} {below rest : Forest α} {place : Place α} :
    place ∈ (cons value below rest).places [] ↔ place = ⟨[], value, below⟩ ∨
      (∃ inner ∈ below.places [], inner.under [value] = place) ∨ place ∈ rest.places [] := by
  have hBelow := places_append [] [value] below
  rw [List.nil_append] at hBelow
  rw [places, List.mem_cons, List.mem_append, hBelow, List.mem_map]

theorem values_sublist_of_mem_places {above : List α} {forest : Forest α} {place : Place α}
    (h : place ∈ forest.places above) : place.values.Sublist forest.values := by
  induction forest generalizing above with
  | nil => cases h
  | cons value below rest hBelow hRest =>
    rw [places, List.mem_cons, List.mem_append] at h
    rcases h with rfl | h | h
    · exact List.cons_sublist_cons.mpr (List.sublist_append_left _ _)
    · exact List.Sublist.cons _ ((hBelow h).trans (List.sublist_append_left _ _))
    · exact List.Sublist.cons _ ((hRest h).trans (List.sublist_append_right _ _))

/-- What is found below a place of a forest is found in the forest, under that place. -/
theorem mem_places_of_mem_below {above : List α} {forest : Forest α} {place inner : Place α}
    (h : place ∈ forest.places above)
    (hInner : inner ∈ place.below.places (place.value :: place.above)) :
    inner ∈ forest.places above := by
  induction forest generalizing above with
  | nil => cases h
  | cons value below rest hBelow hRest =>
    rw [places, List.mem_cons, List.mem_append] at h ⊢
    rcases h with rfl | h | h
    · exact .inr (.inl hInner)
    · exact .inr (.inl (hBelow h))
    · exact .inr (.inr (hRest h))

theorem subset_above_of_mem_places {above : List α} {forest : Forest α} {place : Place α}
    (h : place ∈ forest.places above) : above ⊆ place.above := by
  induction forest generalizing above with
  | nil => cases h
  | cons value below rest hBelow hRest =>
    rw [places, List.mem_cons, List.mem_append] at h
    rcases h with rfl | h | h
    · exact List.Subset.refl _
    · exact fun other hOther => hBelow h (List.mem_cons_of_mem _ hOther)
    · exact hRest h

theorem mem_of_mem_above {above : List α} {forest : Forest α} {place : Place α} {value : α}
    (h : place ∈ forest.places above) (hValue : value ∈ place.above) :
    value ∈ forest.values ∨ value ∈ above := by
  induction forest generalizing above with
  | nil => cases h
  | cons top below rest hBelow hRest =>
    rw [places, List.mem_cons, List.mem_append] at h
    rw [mem_values_cons]
    rcases h with rfl | h | h
    · exact .inr hValue
    · rcases hBelow h with hIn | hIn
      · exact .inl (.inr (.inl hIn))
      · rcases List.mem_cons.mp hIn with rfl | hIn
        · exact .inl (.inl rfl)
        · exact .inr hIn
    · rcases hRest h with hIn | hIn
      · exact .inl (.inr (.inr hIn))
      · exact .inr hIn

theorem exists_place_of_mem_roots {forest : Forest α} {value : α} (above : List α)
    (h : value ∈ forest.roots) :
    ∃ place ∈ forest.places above, place.above = above ∧ place.value = value := by
  induction forest with
  | nil => cases h
  | cons top below rest _ hRest =>
    rcases List.mem_cons.mp h with rfl | h
    · exact ⟨_, List.mem_cons_self, rfl, rfl⟩
    · obtain ⟨place, hPlace, hSame⟩ := hRest h
      exact ⟨place, List.mem_cons_of_mem _ (List.mem_append_right _ hPlace), hSame⟩

/-- A place is one of the roots, or it stands directly below another place. -/
theorem place_cases {above : List α} {forest : Forest α} {place : Place α}
    (h : place ∈ forest.places above) :
    place.above = above ∧ place.value ∈ forest.roots ∨
      ∃ parent ∈ forest.places above, place.above = parent.value :: parent.above ∧
        place.value ∈ parent.below.roots := by
  induction forest generalizing above with
  | nil => cases h
  | cons top below rest hBelow hRest =>
    rw [places, List.mem_cons, List.mem_append] at h
    rcases h with rfl | h | h
    · exact .inl ⟨rfl, List.mem_cons_self⟩
    · rcases hBelow h with ⟨hAbove, hRoot⟩ | ⟨parent, hParent, hSame⟩
      · exact .inr ⟨⟨above, top, below⟩, List.mem_cons_self, hAbove, hRoot⟩
      · exact .inr ⟨parent, List.mem_cons_of_mem _ (List.mem_append_left _ hParent), hSame⟩
    · rcases hRest h with ⟨hAbove, hRoot⟩ | ⟨parent, hParent, hSame⟩
      · exact .inl ⟨hAbove, List.mem_cons_of_mem _ hRoot⟩
      · exact .inr ⟨parent, List.mem_cons_of_mem _ (List.mem_append_right _ hParent), hSame⟩

end Forest

namespace Tree

variable {α : Type u} {β : Type v} {γ : Type w}

theorem map_congr (f g : α → β) (tree : Tree α) (h : ∀ value ∈ tree.values, f value = g value) :
    tree.map f = tree.map g := by
  rw [map, map, h tree.root List.mem_cons_self,
    Forest.map_congr f g _ fun value hValue => h value (List.mem_cons_of_mem _ hValue)]

theorem map_map (f : α → β) (g : β → γ) (tree : Tree α) :
    (tree.map f).map g = tree.map fun value => g (f value) := by
  simp only [map, Forest.map_map]

theorem map_mapPositions (f : Nat → α → β) (g : β → γ) (tree : Tree α) :
    (tree.mapPositions f).map g = tree.mapPositions fun position value => g (f position value) := by
  simp only [map, mapPositions, Forest.map_mapPositions]

theorem mapPositions_map (f : α → β) (g : Nat → β → γ) (tree : Tree α) :
    (tree.map f).mapPositions g = tree.mapPositions fun position value => g position (f value) := by
  simp only [map, mapPositions, Forest.mapPositions_map]

theorem mapPositions_mapPositions (f : Nat → α → β) (g : Nat → β → γ) (tree : Tree α) :
    (tree.mapPositions f).mapPositions g =
      tree.mapPositions fun position value => g position (f position value) := by
  simp only [mapPositions, Forest.mapPositions_mapPositions]

theorem values_map (f : α → β) (tree : Tree α) : (tree.map f).values = tree.values.map f := by
  rw [map, values, Forest.values_map, values, List.map_cons]

theorem values_mapPositions (f : Nat → α → β) (tree : Tree α) :
    (tree.mapPositions f).values = tree.values.mapIdx f := by
  simp only [mapPositions, values, Forest.values_mapPositions, List.mapIdx_cons, Nat.add_comm]

theorem map_position_mapPositions (f : Nat → α → β) (position : β → Nat) (tree : Tree α)
    (h : ∀ index value, position (f index value) = index) :
    (tree.mapPositions f).values.map position = List.range tree.size := by
  rw [values_mapPositions, ← length_values]
  refine List.ext_getElem (by simp) fun index hMapped hRange => ?_
  rw [List.getElem_map, List.getElem_mapIdx, List.getElem_range, h]

theorem map_id_of_forall (f : α → α) (tree : Tree α) (h : ∀ value ∈ tree.values, f value = value) :
    tree.map f = tree := by
  rw [map, h tree.root List.mem_cons_self,
    Forest.map_id_of_forall f _ fun value hValue => h value (List.mem_cons_of_mem _ hValue)]

theorem mapPositions_congr {f g : Nat → α → β} {tree : Tree α}
    (h : ∀ position value, tree.values[position]? = some value →
      f position value = g position value) : tree.mapPositions f = tree.mapPositions g := by
  refine congrArg₂ Tree.mk (h 0 tree.root rfl) ?_
  refine Forest.mapPositions_congr fun position value hValue => h (1 + position) value ?_
  rw [values, Nat.add_comm, List.getElem?_cons_succ, hValue]

theorem mapPositions_eq_self (f : Nat → α → α) (tree : Tree α)
    (h : ∀ position value, f position value = value) : tree.mapPositions f = tree :=
  congrArg₂ Tree.mk (h 0 tree.root) (Forest.mapPositions_eq_self f 1 _ fun _ _ _ _ => h _ _)

theorem modify_eq_mapPositions (edit : α → α) (position : Nat) (tree : Tree α) :
    tree.modify edit position =
      tree.mapPositions fun other value => if other = position then edit value else value := by
  cases position with
  | zero =>
    rw [modify, mapPositions, if_pos rfl,
      Forest.mapPositions_eq_self _ 1 _ fun other _ _ _ => if_neg (by omega)]
  | succ position =>
    rw [modify, mapPositions, if_neg (by omega : ¬0 = position + 1),
      Forest.modify_eq_mapPositions edit position 1, Nat.add_comm 1 position]

theorem modify_modify (first second : α → α) (position : Nat) (tree : Tree α) :
    (tree.modify first position).modify second position =
      tree.modify (fun value => second (first value)) position := by
  rw [modify_eq_mapPositions, modify_eq_mapPositions, modify_eq_mapPositions,
    mapPositions_mapPositions]
  congr 1
  funext other value
  split <;> rfl

theorem modify_id (position : Nat) (tree : Tree α) : tree.modify id position = tree := by
  rw [modify_eq_mapPositions]
  exact mapPositions_eq_self _ tree fun _ _ => ite_id _

theorem places_map (f : α → β) (tree : Tree α) :
    (tree.map f).places = tree.places.map (Place.map f) := by
  rw [places, places, List.map_cons, ← Forest.places_map]
  rfl

theorem values_sublist_of_mem_places {tree : Tree α} {place : Place α}
    (h : place ∈ tree.places) : place.values.Sublist tree.values := by
  rcases List.mem_cons.mp h with rfl | h
  · exact List.Sublist.refl _
  · exact List.Sublist.cons _ (Forest.values_sublist_of_mem_places h)

theorem mem_values_of_mem_places {tree : Tree α} {place : Place α} (h : place ∈ tree.places) :
    place.value ∈ tree.values :=
  (values_sublist_of_mem_places h).subset List.mem_cons_self

theorem mem_places_of_mem_below {tree : Tree α} {place inner : Place α} (h : place ∈ tree.places)
    (hInner : inner ∈ place.below.places (place.value :: place.above)) : inner ∈ tree.places := by
  rcases List.mem_cons.mp h with rfl | h
  · exact List.mem_cons_of_mem _ hInner
  · exact List.mem_cons_of_mem _ (Forest.mem_places_of_mem_below h hInner)

theorem under_mem_places {tree : Tree α} {place inner : Place α} (h : place ∈ tree.places)
    (hInner : inner ∈ place.below.places []) :
    inner.under (place.value :: place.above) ∈ tree.places := by
  refine mem_places_of_mem_below h ?_
  rw [← List.nil_append (place.value :: place.above), Forest.places_append]
  exact List.mem_map_of_mem hInner

theorem mem_values_of_mem_above {tree : Tree α} {place : Place α} {value : α}
    (h : place ∈ tree.places) (hValue : value ∈ place.above) : value ∈ tree.values := by
  rcases List.mem_cons.mp h with rfl | h
  · cases hValue
  · rcases Forest.mem_of_mem_above h hValue with hIn | hIn
    · exact List.mem_cons_of_mem _ hIn
    · rw [List.mem_singleton.mp hIn]
      exact List.mem_cons_self

/-- A place is the top of the tree, or it stands directly below another place. -/
theorem place_cases {tree : Tree α} {place : Place α} (h : place ∈ tree.places) :
    place = ⟨[], tree.root, tree.children⟩ ∨
      ∃ parent ∈ tree.places, place.above = parent.value :: parent.above ∧
        place.value ∈ parent.below.roots := by
  rcases List.mem_cons.mp h with rfl | h
  · exact .inl rfl
  · rcases Forest.place_cases h with ⟨hAbove, hRoot⟩ | ⟨parent, hParent, hSame⟩
    · exact .inr ⟨_, List.mem_cons_self, hAbove, hRoot⟩
    · exact .inr ⟨parent, List.mem_cons_of_mem _ hParent, hSame⟩

theorem exists_place_of_mem_roots {tree : Tree α} {place : Place α} {value : α}
    (h : place ∈ tree.places) (hValue : value ∈ place.below.roots) :
    ∃ child ∈ tree.places, child.above = place.value :: place.above ∧ child.value = value := by
  obtain ⟨child, hChild, hSame⟩ :=
    Forest.exists_place_of_mem_roots (place.value :: place.above) hValue
  exact ⟨child, mem_places_of_mem_below h hChild, hSame⟩

end Tree

end TemplateBinding
