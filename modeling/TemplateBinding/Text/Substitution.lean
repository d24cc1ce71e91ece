/-!
# Substitution

Every occurrence of a pattern in a text is replaced, from left to right.  What was put in is not
searched again, and occurrences do not overlap.
-/
namespace TemplateBinding.Text
set_option autoImplicit false

/-- Replaces the occurrences of a pattern after the first `skip` characters, which are dropped: they
are the rest of an occurrence that was replaced already. -/
def replaceAfter (pattern replacement : List Char) : Nat → List Char → List Char
  | _, [] => []
  | skip + 1, _ :: rest => replaceAfter pattern replacement skip rest
  | 0, c :: rest =>
      if pattern.isPrefixOf (c :: rest) then
        replacement ++ replaceAfter pattern replacement (pattern.length - 1) rest
      else c :: replaceAfter pattern replacement 0 rest

def replaceList (pattern replacement text : List Char) : List Char :=
  if pattern.isEmpty then text else replaceAfter pattern replacement 0 text

/-- Replaces every occurrence of a pattern; an empty pattern occurs nowhere. -/
def replace (pattern replacement text : String) : String :=
  String.ofList (replaceList pattern.toList replacement.toList text.toList)

theorem replaceAfter_eq_drop (pattern replacement : List Char) (skip : Nat) (text : List Char) :
    replaceAfter pattern replacement skip text =
      replaceAfter pattern replacement 0 (text.drop skip) := by
  induction skip generalizing text with
  | zero => rfl
  | succ skip ih =>
    cases text with
    | nil => rfl
    | cons c rest => exact ih rest

end TemplateBinding.Text
