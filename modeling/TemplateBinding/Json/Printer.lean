import TemplateBinding.Json.Basic

/-!
# Printing JSON

The laid-out form has one element to a line, two spaces of indentation for each container around
it, a space after the colon, and no line break at the end.  Empty containers stay on one line.
-/
namespace TemplateBinding.Json
set_option autoImplicit false

/-- Control characters have short escapes where JSON knows one. -/
def escapeControl : Char → List Char
  | '\x08' => ['\\', 'b']
  | '\t' => ['\\', 't']
  | '\n' => ['\\', 'n']
  | '\x0c' => ['\\', 'f']
  | '\r' => ['\\', 'r']
  | c => ['\\', 'u', '0', '0', Nat.digitChar (c.toNat / 16), Nat.digitChar (c.toNat % 16)]

def escapeChar (c : Char) : List Char :=
  if c = '"' then ['\\', '"']
  else if c = '\\' then ['\\', '\\']
  else if c.toNat < 0x20 then escapeControl c
  else [c]

def quoted (text : String) : List Char := '"' :: (text.toList.flatMap escapeChar ++ ['"'])

def intText (value : Int) : List Char := (toString value).toList

def lineBreak (indent : Nat) : List Char := '\n' :: List.replicate (2 * indent) ' '

mutual

/-- The laid-out form of a value that stands at the given indentation. -/
def layout (indent : Nat) : Json → List Char
  | null => ['n', 'u', 'l', 'l']
  | bool true => ['t', 'r', 'u', 'e']
  | bool false => ['f', 'a', 'l', 's', 'e']
  | int value => intText value
  | string text => quoted text
  | array [] => ['[', ']']
  | array (item :: items) =>
      '[' :: (lineBreak (indent + 1) ++ layout (indent + 1) item ++
        layoutItems (indent + 1) items ++ lineBreak indent ++ [']'])
  | object [] => ['{', '}']
  | object ((key, value) :: members) =>
      '{' :: (lineBreak (indent + 1) ++ quoted key ++ [':', ' '] ++ layout (indent + 1) value ++
        layoutMembers (indent + 1) members ++ lineBreak indent ++ ['}'])
  | unsupported => ['n', 'u', 'l', 'l']

def layoutItems (indent : Nat) : List Json → List Char
  | [] => []
  | item :: items =>
      ',' :: (lineBreak indent ++ layout indent item ++ layoutItems indent items)

def layoutMembers (indent : Nat) : List (String × Json) → List Char
  | [] => []
  | (key, value) :: members =>
      ',' :: (lineBreak indent ++ quoted key ++ [':', ' '] ++ layout indent value ++
        layoutMembers indent members)

end

def pretty (value : Json) : String := String.ofList (layout 0 value)

end TemplateBinding.Json
