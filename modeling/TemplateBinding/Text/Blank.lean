/-!
# White space

The characters with the Unicode property `White_Space`, and text with such characters removed from
both ends.
-/
namespace TemplateBinding.Text
set_option autoImplicit false

/-- The character has the property `White_Space`. -/
def isBlankChar (c : Char) : Bool :=
  let n := c.toNat
  (0x09 ≤ n && n ≤ 0x0D) || n == 0x20 || n == 0x85 || n == 0xA0 || n == 0x1680 ||
    (0x2000 ≤ n && n ≤ 0x200A) || n == 0x2028 || n == 0x2029 || n == 0x202F || n == 0x205F ||
    n == 0x3000

/-- The text holds nothing but white space. -/
def isBlank (text : String) : Bool := text.toList.all isBlankChar

def trimList (chars : List Char) : List Char :=
  ((chars.dropWhile isBlankChar).reverse.dropWhile isBlankChar).reverse

/-- The text without the white space at its two ends. -/
def trim (text : String) : String := String.ofList (trimList text.toList)

theorem trimList_eq_nil_of_all {chars : List Char} (h : (trimList chars).all isBlankChar = true) :
    trimList chars = [] := by
  rw [trimList, List.all_reverse] at h
  rw [trimList, List.reverse_eq_nil_iff]
  -- What is kept begins with a character that is not blank.
  by_cases hKept : (chars.dropWhile isBlankChar).reverse.dropWhile isBlankChar = []
  · exact hKept
  · have hFirst := List.head_dropWhile_not isBlankChar hKept
    rw [List.all_eq_true.mp h _ (List.head_mem hKept)] at hFirst
    cases hFirst

/-- Trimmed text is blank only if nothing is left of it. -/
theorem isBlank_trim (text : String) : isBlank (trim text) = (trim text).isEmpty := by
  rw [Bool.eq_iff_iff, String.isEmpty_iff]
  constructor
  · intro h
    rw [isBlank, trim, String.toList_ofList] at h
    rw [trim, trimList_eq_nil_of_all h]
  · intro h
    rw [h]
    rfl

end TemplateBinding.Text
