import TemplateBinding.Validation.Identifiers
import TemplateBinding.Validation.Structure

/-!
# Validation

All checks of a binding tree, one after the other.  Earlier findings are dropped first.  The new
ones are returned in the order of the checks, and each is pushed to the entry it belongs to.
-/
namespace TemplateBinding
set_option autoImplicit false

namespace Entry

def withFindings (findings : List Finding) (entry : Entry) : Entry := { entry with findings }

/-- The finding comes after those that the entry has. -/
def push (finding : Finding) (entry : Entry) : Entry :=
  entry.withFindings (entry.findings ++ [finding])

end Entry

namespace BindingTree

/-- The findings of all checks with the entries they belong to. -/
def locatedFindings (config : Config) (tree : BindingTree) : List Located :=
  tree.identifierFindings config ++ tree.conflictFindings ++ tree.hierarchyFindings ++
    tree.shadowFindings

def findings (config : Config) (tree : BindingTree) : List Finding :=
  (tree.locatedFindings config).map Located.finding

def clearFindings (tree : BindingTree) : BindingTree := tree.map (Entry.withFindings [])

/-- Pushes every finding to the entry it is located at, one after the other. -/
def attach (located : List Located) (tree : BindingTree) : BindingTree :=
  located.foldl (fun tree one => tree.modify (Entry.push one.finding) one.index) tree

def validate (config : Config) (tree : BindingTree) : List Finding × BindingTree :=
  let cleared := tree.clearFindings
  let located := cleared.locatedFindings config
  (located.map Located.finding, cleared.attach located)

end BindingTree

end TemplateBinding
