import TemplateBinding.BindingTree

/-!
# Scopes

The template itself and every entry that opens a scope become generated types.  The members of a
scope are the fields of its type: bindings below it are followed until a nested scope, which is a
field itself but keeps its contents to itself.  Leaves are no fields.
-/
namespace TemplateBinding
set_option autoImplicit false

open BindingTree (Slot)

namespace BindingTree

/-- The fields found in a forest, in pre-order. -/
def members : Forest Slot → List Slot
  | .nil => []
  | .cons slot below rest =>
      match slot.kind? with
      | some .member => slot :: (members below ++ members rest)
      | some .element | some .component => slot :: members rest
      | some .leaf | none => members rest

/-- The scopes in pre-order, the template itself first. -/
def scopes (tree : BindingTree) : List (Place Slot) :=
  tree.places.filter fun place => place.value.isScope

/-- Fields by name: the names in order of first use, and the fields that hold each of them. -/
structure Grouping where
  order : List String
  holders : String → List Slot

namespace Grouping

def empty : Grouping := ⟨[], fun _ => []⟩

/-- Adds a field to the holders of its name, unless it has none or an empty one. -/
def add (grouping : Grouping) (slot : Slot) : Grouping :=
  match slot.name? with
  | none => grouping
  | some name =>
    if name.isEmpty then grouping
    else
      let held := grouping.holders name
      { order := if held.isEmpty then grouping.order ++ [name] else grouping.order
        holders := fun other => if other = name then held ++ [slot] else grouping.holders other }

/-- Takes the holders out name by name, and keeps those that share their name. -/
def drain : (String → List Slot) → List String → List (String × List Slot)
  | _, [] => []
  | holders, name :: order =>
    let held := holders name
    let others := drain (fun other => if other = name then [] else holders other) order
    if 1 < held.length then (name, held) :: others else others

end Grouping

end BindingTree

namespace Place

/-- The fields of the type generated for the place. -/
def members (place : Place Slot) : List Slot := BindingTree.members place.below

/-- The nearest scope above the place.  The template's scope is itself. -/
def scope (place : Place Slot) : Slot :=
  (place.above.find? fun slot => slot.isScope).getD place.value

def enclosingComponent? (place : Place Slot) : Option Slot :=
  place.above.find? fun slot => slot.kind? == some .component

/-- Names that several fields of the place share, in order of first use, with these fields. -/
def duplicates (place : Place Slot) : List (String × List Slot) :=
  let grouping := place.members.foldl BindingTree.Grouping.add BindingTree.Grouping.empty
  BindingTree.Grouping.drain grouping.holders grouping.order

end Place

end TemplateBinding
