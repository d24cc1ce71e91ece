import Mathlib.Data.List.Forall2
import TemplateBinding.Proofs.Rendering

/-!
# Replacement

What replacing every occurrence of a pattern leaves as it is.  If the first character of the pattern
does not come again in it, occurrences cannot overlap, and a text falls apart into the runs between
them.
-/
namespace TemplateBinding
set_option autoImplicit false

namespace Text

variable {pattern body replacement left right text : List Char} {first c : Char}
  {runs : List (List Char)}

/-! ## Occurrences -/

theorem isInfix_append_cons (h : c ∉ pattern) :
    pattern <:+: left ++ c :: right ↔ pattern <:+: left ∨ pattern <:+: right := by
  have hPrefix (left : List Char) : pattern <+: left ++ c :: right ↔ pattern <+: left := by
    rw [← List.isPrefixOf_iff_prefix, isPrefixOf_append_cons left right h,
      List.isPrefixOf_iff_prefix]
  induction left with
  | nil =>
    have hHere := hPrefix []
    rw [List.nil_append, List.prefix_nil] at hHere
    rw [List.nil_append, List.infix_cons_iff, hHere, List.infix_nil]
  | cons d left ih =>
    have hHere := hPrefix (d :: left)
    rw [List.cons_append] at hHere
    rw [List.cons_append, List.infix_cons_iff, hHere, List.infix_cons_iff, or_assoc]
    exact or_congr_right ih

theorem isInfix_append_of_not_mem (h : first ∉ left) :
    first :: body <:+: left ++ right ↔ first :: body <:+: right := by
  induction left with
  | nil => rfl
  | cons d left ih =>
    obtain ⟨hHead, hRest⟩ := not_or.mp (mt List.mem_cons.mpr h)
    rw [List.cons_append, List.infix_cons_iff, List.cons_prefix_cons, ih hRest]
    simp [hHead]

theorem isInfix_intercalate (h : c ∉ pattern) (hPattern : pattern ≠ []) :
    pattern <:+: [c].intercalate runs ↔ ∃ run ∈ runs, pattern <:+: run := by
  induction runs with
  | nil => simpa using hPattern
  | cons run runs ih =>
    cases runs with
    | nil => simp
    | cons next runs =>
      rw [List.intercalate_cons_cons, List.append_assoc, List.singleton_append,
        isInfix_append_cons h, ih]
      simp only [List.mem_cons, exists_eq_or_imp]

/-- How a text is replaced from left to right. -/
inductive Replaces (pattern replacement : List Char) : List Char → List Char → Prop where
  | done : Replaces pattern replacement [] []
  | found {right after : List Char} (rest : Replaces pattern replacement right after) :
      Replaces pattern replacement (pattern ++ right) (replacement ++ after)
  | kept {c : Char} {right after : List Char} (here : ¬ pattern <+: c :: right)
      (rest : Replaces pattern replacement right after) :
      Replaces pattern replacement (c :: right) (c :: after)

theorem replaceAfter_append (first : Char) (body replacement right : List Char) :
    replaceAfter (first :: body) replacement 0 (first :: body ++ right) =
      replacement ++ replaceAfter (first :: body) replacement 0 right := by
  have hPrefix : (first :: body).isPrefixOf (first :: (body ++ right)) = true :=
    List.isPrefixOf_iff_prefix.mpr (List.prefix_append (first :: body) right)
  rw [List.cons_append, replaceAfter, if_pos hPrefix, List.length_cons, Nat.add_sub_cancel,
    replaceAfter_eq_drop, List.drop_left]

theorem replaces_replaceAfter (first : Char) (body replacement : List Char) (text : List Char) :
    Replaces (first :: body) replacement text
      (replaceAfter (first :: body) replacement 0 text) := by
  match text with
  | [] => exact .done
  | c :: right =>
    by_cases hPrefix : first :: body <+: c :: right
    · obtain ⟨later, hLater⟩ := hPrefix
      have hShorter : later.length < (c :: right).length := by
        rw [← hLater, List.length_append, List.length_cons]
        omega
      rw [← hLater, replaceAfter_append]
      exact .found (replaces_replaceAfter first body replacement later)
    · rw [replaceAfter, if_neg (mt List.isPrefixOf_iff_prefix.mp hPrefix)]
      exact .kept hPrefix (replaces_replaceAfter first body replacement right)
termination_by text.length
decreasing_by
  · exact hShorter
  · exact Nat.lt_succ_self right.length

namespace Replaces

variable {after : List Char}

theorem length_le (h : Replaces pattern replacement text after)
    (hLength : pattern.length ≤ replacement.length) : text.length ≤ after.length := by
  induction h with
  | done => exact Nat.le_refl 0
  | found _ ih =>
    rw [List.length_append, List.length_append]
    omega
  | kept _ _ ih => exact Nat.succ_le_succ ih

theorem le_length (h : Replaces pattern replacement text after)
    (hLength : replacement.length ≤ pattern.length) : after.length ≤ text.length := by
  induction h with
  | done => exact Nat.le_refl 0
  | found _ ih =>
    rw [List.length_append, List.length_append]
    omega
  | kept _ _ ih => exact Nat.succ_le_succ ih

/-- Only a text without the pattern stays the same, unless the pattern replaces itself. -/
theorem eq_iff (h : Replaces pattern replacement text after) (hPattern : pattern ≠ []) :
    after = text ↔ replacement = pattern ∨ ¬ pattern <:+: text := by
  induction h with
  | done => simpa using Or.inr hPattern
  | @found right after rest ih =>
    have hHere : pattern <:+: pattern ++ right := (List.prefix_append pattern right).isInfix
    constructor
    · intro hSame
      -- The rests cannot make up for a difference of length here.
      have hLengths := congrArg List.length hSame
      rw [List.length_append, List.length_append] at hLengths
      have hLength : replacement.length = pattern.length := by
        rcases Nat.le_total pattern.length replacement.length with hLonger | hShorter
        · have hRest := rest.length_le hLonger
          omega
        · have hRest := rest.le_length hShorter
          omega
      exact .inl (List.append_inj hSame hLength).1
    · rintro (rfl | hNone)
      · rw [ih.mpr (.inl rfl)]
      · exact absurd hHere hNone
  | kept here _ ih =>
    rw [List.cons.injEq, ih, List.infix_cons_iff, not_or]
    simp [here]

theorem eq_replaceAfter (h : Replaces (first :: body) replacement text after) :
    replaceAfter (first :: body) replacement 0 text = after := by
  induction h with
  | done => rfl
  | found _ ih => rw [replaceAfter_append, ih]
  | kept here _ ih => rw [replaceAfter, if_neg (mt List.isPrefixOf_iff_prefix.mp here), ih]

/-- Occurrences cannot overlap if the first character of the pattern does not come again in it. -/
theorem append {rightAfter : List Char} (h : Replaces (first :: body) replacement text after)
    (hFirst : first ∉ body) (hRight : Replaces (first :: body) replacement right rightAfter) :
    Replaces (first :: body) replacement (text ++ (first :: body ++ right))
      (after ++ (replacement ++ rightAfter)) := by
  induction h with
  | done => exact .found hRight
  | found _ ih =>
    rw [List.append_assoc, List.append_assoc]
    exact .found ih
  | @kept c left after here _ ih =>
    refine .kept (fun hPrefix => here ?_) ih
    rw [List.cons_append, List.cons_prefix_cons] at hPrefix
    rw [List.cons_prefix_cons, ← List.isPrefixOf_iff_prefix,
      ← isPrefixOf_append_cons left (body ++ right) hFirst, List.isPrefixOf_iff_prefix]
    exact hPrefix

end Replaces

theorem replaceList_self (pattern text : List Char) :
    replaceList pattern pattern text = text := by
  cases pattern with
  | nil => rfl
  | cons first body =>
    have hReplaces := replaces_replaceAfter first body (first :: body) text
    exact (hReplaces.eq_iff (List.cons_ne_nil _ _)).mpr (.inl rfl)

theorem replaceAfter_intercalate (hFirst : first ∉ body) (replacement : List Char)
    (runs : List (List Char)) :
    replaceAfter (first :: body) replacement 0 ((first :: body).intercalate runs) =
      replacement.intercalate (runs.map (replaceAfter (first :: body) replacement 0)) := by
  induction runs with
  | nil => rfl
  | cons run runs ih =>
    cases runs with
    | nil => simp
    | cons next runs =>
      rw [List.map_cons, List.map_cons, List.intercalate_cons_cons, List.intercalate_cons_cons,
        ← List.map_cons, ← ih, List.append_assoc, List.append_assoc]
      have hRun := replaces_replaceAfter first body replacement run
      have hRest := replaces_replaceAfter first body replacement
        ((first :: body).intercalate (next :: runs))
      exact (hRun.append hFirst hRest).eq_replaceAfter

theorem length_intercalate_le (separator : List Char) {shorter longer : List (List Char)}
    (h : List.Forall₂ (fun short long => short.length ≤ long.length) shorter longer) :
    (separator.intercalate shorter).length ≤ (separator.intercalate longer).length := by
  induction h with
  | nil => exact Nat.le_refl _
  | cons hHere hRest ih =>
    cases hRest with
    | nil => simpa using hHere
    | cons =>
      rw [List.intercalate_cons_cons, List.intercalate_cons_cons]
      simp only [List.length_append]
      omega

theorem eq_of_intercalate_eq {separator : List Char} {shorter longer : List (List Char)}
    (h : List.Forall₂ (fun short long => short.length ≤ long.length) shorter longer)
    (hSame : separator.intercalate shorter = separator.intercalate longer) : shorter = longer := by
  induction h with
  | nil => rfl
  | cons hHere hRest ih =>
    cases hRest with
    | nil => simpa using hSame
    | cons hNext hLater =>
      rw [List.intercalate_cons_cons, List.intercalate_cons_cons, List.append_assoc,
        List.append_assoc] at hSame
      have hLengths := congrArg List.length hSame
      have hMore := length_intercalate_le separator (.cons hNext hLater)
      simp only [List.length_append] at hLengths
      obtain ⟨rfl, hRests⟩ := List.append_inj hSame (by omega)
      rw [ih (List.append_cancel_left hRests)]

/-- Replacing the pattern between the runs is all that happens just if it does not occur in them. -/
theorem replaceAfter_intercalate_eq_iff (hFirst : first ∉ body) (replacement : List Char)
    (runs : List (List Char)) :
    replaceAfter (first :: body) replacement 0 ((first :: body).intercalate runs) =
        replacement.intercalate runs ↔
      replacement = first :: body ∨ ∀ run ∈ runs, ¬ first :: body <:+: run := by
  have hRuns (run : List Char) := replaces_replaceAfter first body replacement run
  have hPattern : first :: body ≠ [] := List.cons_ne_nil first body
  rw [replaceAfter_intercalate hFirst]
  constructor
  · intro hSame
    have hMap : runs.map (replaceAfter (first :: body) replacement 0) = runs.map id := by
      rw [List.map_id]
      rcases Nat.le_total (first :: body).length replacement.length with hLonger | hShorter
      · refine (eq_of_intercalate_eq ?_ hSame.symm).symm
        exact List.forall₂_map_right_iff.mpr
          (List.forall₂_same.mpr fun run _ => (hRuns run).length_le hLonger)
      · refine eq_of_intercalate_eq ?_ hSame
        exact List.forall₂_map_left_iff.mpr
          (List.forall₂_same.mpr fun run _ => (hRuns run).le_length hShorter)
    by_cases hSelf : replacement = first :: body
    · exact .inl hSelf
    · refine .inr fun run hRun => ?_
      have hKept := List.map_inj_left.mp hMap run hRun
      exact (((hRuns run).eq_iff hPattern).mp hKept).resolve_left hSelf
  · intro hFree
    have hKept : ∀ run ∈ runs, replaceAfter (first :: body) replacement 0 run = id run :=
      fun run hRun => ((hRuns run).eq_iff hPattern).mpr (hFree.imp_right fun h => h run hRun)
    rw [List.map_inj_left.mpr hKept, List.map_id]

end Text

end TemplateBinding
