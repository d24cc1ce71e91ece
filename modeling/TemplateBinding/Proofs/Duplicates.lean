import Mathlib.Data.List.Nodup
import TemplateBinding.Scope

/-!
# Names that several fields share

The fields of a scope are grouped by name in one pass, and the groups are taken out in order of first
use.  A name comes out once, with all fields that have it, exactly when these are several.
-/
namespace TemplateBinding
set_option autoImplicit false

open BindingTree (Slot)

theorem nodup_eraseDups {α : Type} [BEq α] [LawfulBEq α] (values : List α) :
    values.eraseDups.Nodup := by
  match values with
  | [] => exact List.nodup_nil
  | value :: values =>
    rw [List.eraseDups_cons, List.nodup_cons]
    refine ⟨?_, nodup_eraseDups _⟩
    rw [List.mem_eraseDups]
    simp
termination_by values.length
decreasing_by exact Nat.lt_succ_of_le (List.length_filter_le _ _)

theorem exists_split_of_mem {α : Type} {values : List α} {value : α} (hNodup : values.Nodup)
    (h : value ∈ values) : ∃ before after, values = before ++ value :: after ∧
      ∀ other ∈ before ++ after, other ∈ values ∧ other ≠ value := by
  obtain ⟨before, after, rfl⟩ := List.append_of_mem h
  have hNew := (List.nodup_cons.mp (List.nodup_middle.mp hNodup)).1
  refine ⟨before, after, rfl, fun other hOther => ⟨?_, ?_⟩⟩
  · exact List.perm_middle.mem_iff.mpr (List.mem_cons_of_mem _ hOther)
  · rintro rfl
    exact hNew hOther

namespace BindingTree

/-- The names of the fields that have one, field by field. -/
def names (slots : List Slot) : List String :=
  (slots.filterMap fun slot => slot.name?).filter fun name => !name.isEmpty

def holdersOf (slots : List Slot) (name : String) : List Slot :=
  slots.filter fun slot => slot.name? == some name

variable {slots : List Slot} {slot : Slot} {name : String}

theorem mem_holdersOf_iff : slot ∈ holdersOf slots name ↔ slot ∈ slots ∧ slot.name? = some name := by
  rw [holdersOf, List.mem_filter, beq_iff_eq]

theorem mem_names_iff : name ∈ names slots ↔ name.isEmpty = false ∧ holdersOf slots name ≠ [] := by
  rw [names, List.mem_filter, List.mem_filterMap, and_comm, holdersOf, ne_eq,
    List.filter_eq_nil_iff]
  simp

theorem holdersOf_eq_nil_iff (h : name.isEmpty = false) :
    holdersOf slots name = [] ↔ name ∉ names slots := by
  rw [mem_names_iff, not_and, not_not]
  exact ⟨fun hNone _ => hNone, fun hNone => hNone h⟩

theorem names_append (first second : List Slot) :
    names (first ++ second) = names first ++ names second := by
  rw [names, List.filterMap_append, List.filter_append]
  rfl

theorem holdersOf_append (first second : List Slot) (name : String) :
    holdersOf (first ++ second) name = holdersOf first name ++ holdersOf second name :=
  List.filter_append _ _

namespace Grouping

variable {grouping : Grouping}

structure Holds (grouping : Grouping) (slots : List Slot) : Prop where
  order : grouping.order = (names slots).eraseDups
  holders : ∀ name : String, name.isEmpty = false → grouping.holders name = holdersOf slots name

theorem holds_empty : Holds empty [] := ⟨rfl, fun _ _ => rfl⟩

theorem Holds.skip (h : Holds grouping slots) (hUnnamed : names [slot] = []) :
    Holds grouping (slots ++ [slot]) := by
  constructor
  · rw [names_append, hUnnamed, List.append_nil, h.order]
  · intro name hName
    have hNone : holdersOf [slot] name = [] := by simp [holdersOf_eq_nil_iff hName, hUnnamed]
    rw [holdersOf_append, hNone, List.append_nil, h.holders name hName]

theorem Holds.add (h : Holds grouping slots) (slot : Slot) :
    Holds (grouping.add slot) (slots ++ [slot]) := by
  rw [Grouping.add]
  split
  case h_1 hName => exact h.skip (by simp [names, hName])
  case h_2 name hName =>
    split
    case isTrue hEmpty => exact h.skip (by simp [names, hName, hEmpty])
    case isFalse hNamed =>
      rw [Bool.not_eq_true] at hNamed
      have hOwn : names [slot] = [name] := by simp [names, hName, hNamed]
      constructor
      · -- The name is new exactly if no field holds it yet.
        rw [names_append, hOwn, List.eraseDups_append, h.holders name hNamed, h.order]
        have hNew : holdersOf slots name = [] ↔ name ∉ names slots := holdersOf_eq_nil_iff hNamed
        by_cases hKnown : name ∈ names slots
        · simp [hNew, hKnown, List.removeAll]
        · simp [hNew, hKnown, List.removeAll, List.eraseDups_cons]
      · intro other hOther
        rw [holdersOf_append]
        by_cases hSame : other = name
        · subst hSame
          simp [h.holders other hOther, holdersOf, hName]
        · simp [hSame, Ne.symm hSame, h.holders other hOther, holdersOf, hName]

theorem Holds.foldl (h : Holds grouping slots) (more : List Slot) :
    Holds (more.foldl Grouping.add grouping) (slots ++ more) := by
  induction more generalizing grouping slots with
  | nil => rwa [List.append_nil]
  | cons slot more ih =>
    rw [List.foldl_cons, List.append_cons]
    exact ih (h.add slot)

/-- Each name is taken out once, so it still has all its holders. -/
theorem drain_eq {order : List String} (h : order.Nodup) (holders : String → List Slot) :
    drain holders order =
      (order.map fun name => (name, holders name)).filter fun (_, held) => 1 < held.length := by
  induction order generalizing holders with
  | nil => rfl
  | cons name order ih =>
    obtain ⟨hNew, hOrder⟩ := List.nodup_cons.mp h
    have hOthers : (order.map fun other => (other, if other = name then [] else holders other)) =
        order.map fun other => (other, holders other) := by
      refine List.map_congr_left fun other hOther => ?_
      rw [if_neg]
      rintro rfl
      exact hNew hOther
    rw [drain, ih hOrder, hOthers, List.map_cons, List.filter_cons]
    simp only [decide_eq_true_eq]

end Grouping

end BindingTree

open BindingTree (Grouping names holdersOf mem_holdersOf_iff mem_names_iff)

namespace Place

variable {place : Place Slot} {first second : Slot} {name : String} {holders : List Slot}

/-! ## The fields of a place -/

def uses (place : Place Slot) (name : String) : Nat :=
  (place.members.filter fun slot => slot.name? == some name).length

theorem count_names (place : Place Slot) (name : String) :
    (place.members.filterMap fun slot => slot.name?).count name = place.uses name := by
  rw [List.count_filterMap, List.countP_eq_length_filter, uses]

theorem uses_eq_countP (place : Place Slot) (name : String) :
    place.uses name = place.members.countP fun slot => slot.name? == some name :=
  List.countP_eq_length_filter.symm

theorem uses_pos_iff : 0 < place.uses name ↔ ∃ slot ∈ place.members, slot.name? = some name := by
  rw [uses_eq_countP, List.countP_pos_iff]
  simp only [beq_iff_eq]

theorem one_lt_uses (hFirst : first ∈ place.members) (hSecond : second ∈ place.members)
    (hFirstName : first.name? = some name) (hSecondName : second.name? = some name)
    (h : first ≠ second) : 1 < place.uses name := by
  have hFirst := mem_holdersOf_iff.mpr ⟨hFirst, hFirstName⟩
  have hSecond := mem_holdersOf_iff.mpr ⟨hSecond, hSecondName⟩
  by_contra hFew
  have hLength : (holdersOf place.members name).length = 1 :=
    Nat.le_antisymm (Nat.le_of_not_lt hFew) (List.length_pos_of_mem hFirst)
  obtain ⟨holder, hHolder⟩ := List.length_eq_one_iff.mp hLength
  rw [hHolder, List.mem_singleton] at hFirst hSecond
  exact h (hFirst.trans hSecond.symm)

theorem exists_ne_of_one_lt_uses (hNodup : place.members.Nodup) (h : 1 < place.uses name)
    (first : Slot) : ∃ second ∈ place.members, second.name? = some name ∧ second ≠ first := by
  by_contra hNone
  have hSame : ∀ slot ∈ holdersOf place.members name, slot = first := by
    intro slot hSlot
    obtain ⟨hMember, hName⟩ := mem_holdersOf_iff.mp hSlot
    by_contra hOther
    exact hNone ⟨slot, hMember, hName, hOther⟩
  have hHolders : (holdersOf place.members name).Nodup := hNodup.filter _
  rw [List.eq_replicate_of_mem hSame, List.nodup_replicate] at hHolders
  exact absurd h (Nat.not_lt.mpr hHolders)

/-- The duplicates are the names with several holders, in order of first use. -/
theorem duplicates_eq (place : Place Slot) :
    place.duplicates = ((names place.members).eraseDups.map fun name =>
      (name, holdersOf place.members name)).filter
        fun (_, holders) => 1 < holders.length := by
  have hHolds := Grouping.holds_empty.foldl place.members
  rw [List.nil_append] at hHolds
  have hNodup := hHolds.order ▸ nodup_eraseDups (names place.members)
  rw [duplicates, Grouping.drain_eq hNodup, hHolds.order]
  congr 1
  refine List.map_congr_left fun name hName => ?_
  rw [hHolds.holders name (mem_names_iff.mp (List.mem_eraseDups.mp hName)).1]

theorem nodup_duplicates (place : Place Slot) : (place.duplicates.map Prod.fst).Nodup := by
  rw [duplicates_eq]
  refine List.Nodup.sublist (List.filter_sublist.map _) ?_
  rw [List.map_map]
  exact (List.map_id _).symm ▸ nodup_eraseDups _

theorem mem_duplicates_iff :
    (name, holders) ∈ place.duplicates ↔
      name.isEmpty = false ∧ holders = place.members.filter (fun slot => slot.name? == some name) ∧
        1 < place.uses name := by
  rw [duplicates_eq]
  simp only [List.mem_filter, List.mem_map, List.mem_eraseDups, decide_eq_true_eq, Prod.mk.injEq]
  constructor
  · rintro ⟨⟨_, hName, rfl, rfl⟩, hMany⟩
    exact ⟨(mem_names_iff.mp hName).1, rfl, hMany⟩
  · rintro ⟨hName, rfl, hMany⟩
    refine ⟨⟨name, mem_names_iff.mpr ⟨hName, ?_⟩, rfl, rfl⟩, hMany⟩
    exact List.ne_nil_of_length_pos (Nat.lt_trans Nat.zero_lt_one hMany)

theorem nodup_holders (h : place.members.Nodup) :
    (place.duplicates.flatMap Prod.snd).Nodup := by
  rw [List.nodup_flatMap]
  constructor
  · rintro ⟨name, holders⟩ hDuplicate
    obtain ⟨_, rfl, _⟩ := mem_duplicates_iff.mp hDuplicate
    exact h.filter _
  · refine (List.pairwise_map.mp (nodup_duplicates place)).imp_of_mem ?_
    rintro ⟨first, firstHolders⟩ ⟨second, secondHolders⟩ hFirst hSecond hDistinct slot hSlot hAgain
    obtain ⟨_, rfl, _⟩ := mem_duplicates_iff.mp hFirst
    obtain ⟨_, rfl, _⟩ := mem_duplicates_iff.mp hSecond
    have hName := (mem_holdersOf_iff.mp hSlot).2
    rw [(mem_holdersOf_iff.mp hAgain).2] at hName
    exact hDistinct (Option.some.inj hName.symm)

end Place

end TemplateBinding
