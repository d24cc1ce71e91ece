import TemplateBinding.Json.Basic

/-!
# Decoding JSON

A record is written as an object with its fields by name, in any order and among others, or as an
array with its fields by position.  A choice is written as its name, or as an object that maps the
name to null.  Decoders take the number of containers that may still be opened, and refuse a value
that needs more.
-/
namespace TemplateBinding
set_option autoImplicit false

/-- A finite map with its keys in ascending order. -/
abbrev Table (α : Type) := List (String × α)

namespace Table

variable {α : Type}

/-- Puts an entry in its place; an earlier entry of the same key is replaced. -/
def insert (key : String) (value : α) : Table α → Table α
  | [] => [(key, value)]
  | (otherKey, otherValue) :: entries =>
      if key < otherKey then (key, value) :: (otherKey, otherValue) :: entries
      else if key = otherKey then (key, value) :: entries
      else (otherKey, otherValue) :: insert key value entries

def ofList (entries : List (String × α)) : Table α :=
  entries.foldl (fun table (key, value) => table.insert key value) []

end Table

namespace Json

variable {α : Type}

def string? : Json → Option String
  | string text => some text
  | _ => none

def bool? : Json → Option Bool
  | bool value => some value
  | _ => none

def natBelow? (bound : Nat) : Json → Option Nat
  | int (.ofNat n) => if n < bound then some n else none
  | _ => none

/-- Null stands for no value. -/
def nullable (decode : Json → Option α) : Json → Option (Option α)
  | null => some none
  | value => (decode value).map some

def items? (decode : Json → Option α) : Json → Option (List α)
  | array items => items.mapM decode
  | _ => none

def listOf (decode : Nat → Json → Option α) : Nat → Json → Option (List α)
  | limit + 1, json => items? (decode limit) json
  | 0, _ => none

def strings? : Nat → Json → Option (List String) := listOf fun _ => string?

/-- The last entry of a repeated key counts. -/
def tableOf (decode : Nat → Json → Option α) : Nat → Json → Option (Table α)
  | limit + 1, object members =>
      (members.mapM fun entry : String × Json => (decode limit entry.2).map (entry.1, ·)).map
        Table.ofList
  | _, _ => none

def choice (named : String → Option α) : Nat → Json → Option α
  | _, string name => named name
  | _ + 1, object [(name, null)] => named name
  | _, _ => none

/-- The fields of a record by name, and whether they were given by position. -/
structure Fields where
  positional : Bool
  members : List (String × Json)

namespace Fields

/-- The fields called `names`, none of which may occur twice.  By position, later fields may be
missing. -/
def of? (names : List String) : Json → Option Fields
  | object members =>
      if names.all fun name => members.countP (·.1 == name) ≤ 1 then some ⟨false, members⟩
      else none
  | array items => if items.length ≤ names.length then some ⟨true, names.zip items⟩ else none
  | _ => none

def get? (fields : Fields) (name : String) : Option Json :=
  (fields.members.find? (·.1 == name)).map (·.2)

def required (fields : Fields) (name : String) (decode : Json → Option α) : Option α :=
  (fields.get? name).bind decode

def withDefault (fields : Fields) (name : String) (value : α) (decode : Json → Option α) :
    Option α :=
  match fields.get? name with
  | none => some value
  | some json => decode json

/-- A field that is null when it has no value.  By name it may be left out. -/
def optional (fields : Fields) (name : String) (decode : Json → Option α) : Option (Option α) :=
  match fields.get? name with
  | none => if fields.positional then none else some none
  | some json => nullable decode json

end Fields

/-- Opens a record: its fields, and the number of containers that may be opened inside it. -/
def record? (names : List String) : Nat → Json → Option (Fields × Nat)
  | limit + 1, json => (Fields.of? names json).map (·, limit)
  | 0, _ => none

end Json

end TemplateBinding
