import TemplateBinding.Capability
import TemplateBinding.Text.UpperCase

/-!
# Identifiers

Which texts name a generated field, and which name is suggested for a label.  A suggestion keeps
the ASCII letters and digits of the label, joins its words by single underscores, and puts the
prefix of the capability in front unless the name already begins with it.
-/
namespace TemplateBinding
set_option autoImplicit false

namespace Identifier

def isLetter (c : Char) : Bool := ('A' ≤ c && c ≤ 'Z') || ('a' ≤ c && c ≤ 'z')

def isDigit (c : Char) : Bool := '0' ≤ c && c ≤ '9'

def startsName (c : Char) : Bool := isLetter c || c == '_'

def continuesName (c : Char) : Bool := startsName c || isDigit c

def isLegalList : List Char → Bool
  | [] => false
  | first :: rest => startsName first && rest.all continuesName

/-- An ASCII letter or underscore, followed by ASCII letters, digits and underscores. -/
def isLegal (name : String) : Bool := isLegalList name.toList

theorem startsName_iff {c : Char} : startsName c = true ↔ isLetter c = true ∨ c = '_' := by
  rw [startsName, Bool.or_eq_true, beq_iff_eq]

theorem continuesName_iff {c : Char} :
    continuesName c = true ↔ startsName c = true ∨ isDigit c = true := by
  rw [continuesName, Bool.or_eq_true]

theorem isLegalList_iff {chars : List Char} : isLegalList chars = true ↔
    (∃ first ∈ chars.head?, startsName first = true) ∧ ∀ c ∈ chars, continuesName c = true := by
  cases chars with
  | nil => simp [isLegalList]
  | cons first rest =>
    simp only [isLegalList, Bool.and_eq_true, List.all_eq_true, List.head?_cons, Option.mem_some_iff,
      exists_eq_left', List.forall_mem_cons]
    exact and_congr_right fun hFirst =>
      (and_iff_right (continuesName_iff.mpr (.inl hFirst))).symm

def keywords : List String := [
  "abstract", "as", "base", "bool", "break", "byte", "case", "catch", "char", "checked", "class",
  "const", "continue", "decimal", "default", "delegate", "do", "double", "else", "enum", "event",
  "explicit", "extern", "false", "finally", "fixed", "float", "for", "foreach", "goto", "if",
  "implicit", "in", "int", "interface", "internal", "is", "lock", "long", "namespace", "new",
  "null", "object", "operator", "out", "override", "params", "private", "protected", "public",
  "readonly", "ref", "return", "sbyte", "sealed", "short", "sizeof", "stackalloc", "static",
  "string", "struct", "switch", "this", "throw", "true", "try", "typeof", "uint", "ulong",
  "unchecked", "unsafe", "ushort", "using", "virtual", "void", "volatile", "while"]

def isReserved (config : Config) (name : String) : Bool :=
  keywords.contains name || config.extraReservedWords.contains name

/-! ## Suggestions -/

def isSeparator (c : Char) : Bool := c == ' ' || c == '-' || c == '_'

/-- The ASCII letters and digits of a label, with one underscore wherever separators stand between
two of them; other characters are dropped.  `started` tells that something was kept before, and
`pending` that there was a separator since. -/
def joinWords : List Char → (started pending : Bool) → List Char
  | [], _, _ => []
  | c :: rest, started, pending =>
      if isLetter c || isDigit c then
        (if started && pending then ['_', c] else [c]) ++ joinWords rest true false
      else joinWords rest started (pending || isSeparator c)

/-- A name does not begin with a digit. -/
def guardDigit : List Char → List Char
  | [] => []
  | first :: rest => if isDigit first then '_' :: first :: rest else first :: rest

/-- The text begins with the other one, up to the case of the ASCII letters. -/
def beginsWith (text start : List Char) : Bool :=
  sameIgnoringCase (text.take start.length) start

def addPrefix (start : Option (List Char)) (name : List Char) : List Char :=
  match start with
  | none => name
  | some start => if beginsWith name start then name else start ++ name

/-- The name suggested for a label of a node with the given primary capability. -/
def suggest (config : Config) (capability : Option String) (label : String) : String :=
  let words := joinWords label.toList false false
  let name := if words.isEmpty then config.fallbackName.toList else words
  let start := (capability.bind config.namePrefix?).map String.toList
  String.ofList (Text.capitalize (addPrefix start (guardDigit name)))

end Identifier

end TemplateBinding
