import TemplateBinding.Scope

/-!
# Located findings

A check reports issues, each at the entry it belongs to.  The finding names the hierarchy node and
its path; the index says where in the tree the finding is attached.
-/
namespace TemplateBinding
set_option autoImplicit false

structure Located where
  index : Nat
  target : NodeId
  targetPath : String
  issue : Issue
  suggestedFix : Option String := none
  deriving Repr, DecidableEq

namespace Located

def finding (located : Located) : Finding :=
  .ofIssue located.issue located.target located.targetPath located.suggestedFix

/-- An issue of the entry at which it is attached. -/
def ofSlot (slot : BindingTree.Slot) (issue : Issue) (suggestedFix : Option String) : Located :=
  ⟨slot.index, slot.node, slot.pathText, issue, suggestedFix⟩

end Located

end TemplateBinding
