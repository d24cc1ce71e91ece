import TemplateBinding.Validation.Basic

/-!
# Scopes, components and leaves

Names are unique among the fields of one scope, no element lies inside a component at any depth, and
a binding below a leaf has no effect.
-/
namespace TemplateBinding.BindingTree
set_option autoImplicit false

/-- The conflicts in one scope: every field that shares its name is reported. -/
def conflictFindingsIn (scope : Place Slot) : List Located :=
  scope.duplicates.flatMap fun (name, holders) =>
    holders.map fun slot =>
      .ofSlot slot (.nameConflict name holders.length scope.value.displayName) none

def conflictFindings (tree : BindingTree) : List Located :=
  tree.scopes.flatMap conflictFindingsIn

/-- What to do about an element inside a component. -/
def memberFix : String := "convert to Member"

def hierarchyFindingsAt (place : Place Slot) : List Located :=
  if place.value.kind? = some .element then
    match place.enclosingComponent? with
    | none => []
    | some component =>
      [.ofSlot place.value
        (.elementUnderComponent place.value.displayName component.displayName) (some memberFix)]
  else []

def hierarchyFindings (tree : BindingTree) : List Located :=
  tree.places.flatMap hierarchyFindingsAt

def shadowFindingsAt (slot : Slot) : List Located :=
  slot.hidden.map fun hidden =>
    let path := "/".intercalate hidden.path
    { index := slot.index, target := hidden.node, targetPath := path,
      issue := .shadowedByLeaf path slot.pathText }

def shadowFindings (tree : BindingTree) : List Located :=
  tree.slots.values.flatMap shadowFindingsAt

end TemplateBinding.BindingTree
