/-!
# JSON values

The members of an object keep the order and the repetitions in which they were written.  A value
that is well-formed but stands for nothing in this model, such as a number that is no integer or a
string with an unpaired surrogate, is `unsupported`: it may be skipped, and no decoder accepts it.
-/
namespace TemplateBinding
set_option autoImplicit false

inductive Json where
  | null
  | bool (value : Bool)
  | int (value : Int)
  | string (text : String)
  | array (items : List Json)
  | object (members : List (String × Json))
  | unsupported
  deriving Repr

namespace Json

mutual

/-- The number of containers around the innermost value. -/
def nesting : Json → Nat
  | array items => nestingOfItems items + 1
  | object members => nestingOfMembers members + 1
  | _ => 0

def nestingOfItems : List Json → Nat
  | [] => 0
  | item :: items => max item.nesting (nestingOfItems items)

def nestingOfMembers : List (String × Json) → Nat
  | [] => 0
  | (_, value) :: members => max value.nesting (nestingOfMembers members)

end

/-- An object, or `unsupported` when one of its keys is not a text. -/
def ofMembers (members : List (Option String × Json)) : Json :=
  match members.mapM fun (key, value) => key.map (·, value) with
  | some members => object members
  | none => unsupported

def ofOption {α : Type} (encode : α → Json) : Option α → Json
  | none => null
  | some value => encode value

def strings (texts : List String) : Json := array (texts.map string)

end Json

end TemplateBinding
