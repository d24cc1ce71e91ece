import Mathlib.Data.Char
import Mathlib.Data.List.Induction
import Mathlib.Data.List.Lex
import Mathlib.Data.Prod.Lex
import TemplateBinding.Artifact.PathName

/-!
# The order of paths

Paths are ordered like the lists of their components, so two of them are in order, the other way
round, or spellings of one path.  Sorting keeps of each path the spelling that came last.
-/
namespace TemplateBinding.PathName
set_option autoImplicit false

variable {path other first second third : String} {paths : List String}

namespace Component

def text : Component → List Char
  | name text => text
  | _ => []

/-- The rank and the text of a component, which decide where it comes. -/
def key (component : Component) : Nat ×ₗ List Char := toLex (component.rank, component.text)

theorem key_injective : Function.Injective key := by
  intro first second h
  have hKey := toLex_inj.mp h
  cases first <;> cases second <;> simp [rank, text] at hKey <;> simp [hKey]

theorem before_iff (first second : Component) :
    first.before second = true ↔ first.key < second.key := by
  rw [key, key, Prod.Lex.toLex_lt_toLex]
  cases first <;> cases second <;> simp [before, rank, text]

end Component

theorem beforeComponents_iff (firsts seconds : List Component) :
    beforeComponents firsts seconds = true ↔
      firsts.map Component.key < seconds.map Component.key := by
  induction firsts generalizing seconds with
  | nil => cases seconds <;> simp [beforeComponents]
  | cons first firsts ih =>
    cases seconds with
    | nil => simp [beforeComponents]
    | cons second seconds =>
      rw [beforeComponents, Bool.or_eq_true, Bool.and_eq_true, beq_iff_eq, ih,
        Component.before_iff, List.map_cons, List.map_cons, List.cons_lt_cons_iff,
        Component.key_injective.eq_iff]

/-- What decides where a path comes. -/
def keys (path : String) : List (Nat ×ₗ List Char) := (components path).map Component.key

theorem before_iff (first second : String) :
    before first second = true ↔ keys first < keys second :=
  beforeComponents_iff _ _

theorem same_iff (first second : String) :
    same first second = true ↔ components first = components second := beq_iff_eq

theorem same_iff_keys (first second : String) :
    same first second = true ↔ keys first = keys second := by
  rw [same_iff, keys, keys, (List.map_injective_iff.mpr Component.key_injective).eq_iff]

theorem same_comm (first second : String) : same first second = same second first := by
  rw [Bool.eq_iff_iff, same_iff, same_iff, eq_comm]

theorem same_eq_false_of_before (h : before first second = true) : same first second = false := by
  rw [← Bool.not_eq_true, same_iff_keys]
  exact ne_of_lt ((before_iff _ _).mp h)

/-- Strictly ascending, so no path is spelled twice. -/
def Ascending (paths : List String) : Prop :=
  paths.Pairwise fun first second => before first second = true

theorem mem_insert_iff (hPaths : Ascending paths) :
    other ∈ insert path paths ↔ other = path ∨ other ∈ paths ∧ same path other = false := by
  induction paths with
  | nil => simp [insert]
  | cons next paths ih =>
    obtain ⟨hNext, hRest⟩ := List.pairwise_cons.mp hPaths
    have hLater {later : String} (hIn : later ∈ paths) : keys next < keys later :=
      (before_iff _ _).mp (hNext later hIn)
    rw [insert]
    split
    · rename_i hBefore
      have hApart (hIn : other ∈ next :: paths) : same path other = false := by
        refine same_eq_false_of_before ?_
        rcases List.mem_cons.mp hIn with rfl | hIn
        · exact hBefore
        · exact (before_iff _ _).mpr (((before_iff _ _).mp hBefore).trans (hLater hIn))
      rw [List.mem_cons]
      exact or_congr_right ⟨fun hIn => ⟨hIn, hApart hIn⟩, And.left⟩
    · split
      · rename_i hSame
        have hKeys := (same_iff_keys _ _).mp hSame
        have hApart (hIn : other ∈ paths) : same path other = false :=
          same_eq_false_of_before ((before_iff _ _).mpr (hKeys ▸ hLater hIn))
        rw [List.mem_cons, List.mem_cons]
        refine or_congr_right ⟨fun hIn => ⟨.inr hIn, hApart hIn⟩, ?_⟩
        rintro ⟨rfl | hIn, hOther⟩
        · rw [hSame] at hOther
          cases hOther
        · exact hIn
      · rename_i hSame
        rw [List.mem_cons, List.mem_cons, ih hRest]
        constructor
        · rintro (rfl | rfl | ⟨hIn, hOther⟩)
          · exact .inr ⟨.inl rfl, by simpa using hSame⟩
          · exact .inl rfl
          · exact .inr ⟨.inr hIn, hOther⟩
        · rintro (rfl | ⟨rfl | hIn, hOther⟩)
          · exact .inr (.inl rfl)
          · exact .inl rfl
          · exact .inr (.inr ⟨hIn, hOther⟩)

theorem ascending_insert (path : String) (hPaths : Ascending paths) :
    Ascending (insert path paths) := by
  induction paths with
  | nil => exact List.pairwise_singleton _ path
  | cons next paths ih =>
    obtain ⟨hNext, hRest⟩ := List.pairwise_cons.mp hPaths
    rw [insert]
    split
    · rename_i hBefore
      refine List.pairwise_cons.mpr ⟨fun later hIn => ?_, hPaths⟩
      rcases List.mem_cons.mp hIn with rfl | hIn
      · exact hBefore
      · exact (before_iff _ _).mpr
          (((before_iff _ _).mp hBefore).trans ((before_iff _ _).mp (hNext later hIn)))
    · rename_i hBefore
      split
      · rename_i hSame
        have hKeys := (same_iff_keys _ _).mp hSame
        refine List.pairwise_cons.mpr ⟨fun later hIn => ?_, hRest⟩
        exact (before_iff _ _).mpr (hKeys ▸ (before_iff _ _).mp (hNext later hIn))
      · rename_i hSame
        refine List.pairwise_cons.mpr ⟨fun later hIn => ?_, ih hRest⟩
        rcases (mem_insert_iff hRest).mp hIn with rfl | ⟨hIn, -⟩
        · rw [before_iff] at hBefore ⊢
          rw [same_iff_keys] at hSame
          exact lt_of_le_of_ne (not_lt.mp hBefore) (Ne.symm hSame)
        · exact hNext later hIn

/-! ## Sorting -/

/-- The spelling of a path that comes last in a list of paths. -/
def lastSpelling? (paths : List String) (path : String) : Option String :=
  paths.reverse.find? (same path)

theorem lastSpelling?_concat (paths : List String) (next path : String) :
    lastSpelling? (paths ++ [next]) path =
      if same path next = true then some next else lastSpelling? paths path := by
  rw [lastSpelling?, List.reverse_append, List.reverse_singleton, List.singleton_append,
    List.find?_cons, lastSpelling?]
  cases same path next <;> rfl

theorem sorted_concat (paths : List String) (next : String) :
    sorted (paths ++ [next]) = insert next (sorted paths) := List.foldl_concat ..

theorem ascending_sorted (paths : List String) : Ascending (sorted paths) := by
  induction paths using List.reverseRecOn with
  | nil => exact List.Pairwise.nil
  | append_singleton paths next ih =>
    rw [sorted_concat]
    exact ascending_insert next ih

theorem mem_sorted_iff (paths : List String) (path : String) :
    path ∈ sorted paths ↔ lastSpelling? paths path = some path := by
  induction paths using List.reverseRecOn with
  | nil => simp [sorted, lastSpelling?]
  | append_singleton paths next ih =>
    rw [sorted_concat, mem_insert_iff (ascending_sorted paths), ih, lastSpelling?_concat,
      same_comm next]
    cases hSame : same path next with
    | true => simp [eq_comm]
    | false =>
      have hOther : path ≠ next := by
        rintro rfl
        rw [same_iff path path |>.mpr rfl] at hSame
        cases hSame
      simp [hOther]

theorem exists_lastSpelling? (h : path ∈ paths) :
    ∃ kept, lastSpelling? paths path = some kept :=
  Option.isSome_iff_exists.mp
    (List.find?_isSome.mpr ⟨path, List.mem_reverse.mpr h, (same_iff path path).mpr rfl⟩)

theorem mem_of_lastSpelling? {kept : String} (h : lastSpelling? paths path = some kept) :
    kept ∈ paths ∧ same path kept = true :=
  ⟨List.mem_reverse.mp (List.mem_of_find?_eq_some h), List.find?_some h⟩

theorem lastSpelling?_congr (hSame : same path other = true) :
    lastSpelling? paths path = lastSpelling? paths other := by
  have hEqual : same path = same other := by
    funext third
    rw [same, same, (same_iff _ _).mp hSame]
  rw [lastSpelling?, lastSpelling?, hEqual]

theorem exists_mem_sorted (h : path ∈ paths) : ∃ kept ∈ sorted paths, same path kept = true := by
  obtain ⟨kept, hKept⟩ := exists_lastSpelling? h
  have hSame := (mem_of_lastSpelling? hKept).2
  refine ⟨kept, (mem_sorted_iff paths kept).mpr ?_, hSame⟩
  rw [← lastSpelling?_congr hSame, hKept]

theorem forall_mem_sorted_iff {P : String → Prop}
    (hSame : ∀ first second, same first second = true → P second → P first) :
    (∀ path ∈ sorted paths, P path) ↔ ∀ path ∈ paths, P path := by
  constructor
  · intro h path hIn
    obtain ⟨kept, hKept, hSpelling⟩ := exists_mem_sorted hIn
    exact hSame path kept hSpelling (h kept hKept)
  · exact fun h path hIn =>
      h path (mem_of_lastSpelling? ((mem_sorted_iff paths path).mp hIn)).1

theorem mem_arranged_iff : path ∈ arranged paths ↔ path ∈ paths := List.mem_mergeSort

/-- Sorting keeps repetitions, so the paths ascend strictly only if there are none. -/
theorem ascending_arranged
    (hDistinct : paths.Pairwise fun first second => same first second = false) :
    Ascending (arranged paths) := by
  have hOrdered : (arranged paths).Pairwise fun first second => (!before second first) = true := by
    refine List.pairwise_mergeSort (fun first second third hFirst hSecond => ?_)
      (fun first second => ?_) paths
    · rw [Bool.not_eq_true', ← Bool.not_eq_true, before_iff, not_lt] at hFirst hSecond ⊢
      exact hFirst.trans hSecond
    · rw [Bool.or_eq_true, Bool.not_eq_true', Bool.not_eq_true', ← Bool.not_eq_true,
        ← Bool.not_eq_true, before_iff, before_iff, not_lt, not_lt]
      exact le_total _ _
  have hApart : (arranged paths).Pairwise fun first second => same first second = false :=
    (List.mergeSort_perm paths _).symm.pairwise hDistinct fun h => same_comm _ _ ▸ h
  refine hOrdered.imp₂ (fun first second hNot hOther => ?_) hApart
  rw [Bool.not_eq_true', ← Bool.not_eq_true, before_iff, not_lt] at hNot
  rw [← Bool.not_eq_true, same_iff_keys] at hOther
  exact (before_iff _ _).mpr (lt_of_le_of_ne hNot hOther)

end TemplateBinding.PathName
