/-!
# Stages of a conversion session

A session starts as requested, is rejected or previewed, and a previewed session is cancelled or
executed.
-/
namespace TemplateBinding.Conversion
set_option autoImplicit false

inductive Stage where
  | requested
  | rejected
  | previewed
  | cancelled
  | executed
  | executionFailed
  deriving Repr, DecidableEq

namespace Stage

def name : Stage → String
  | requested => "Requested"
  | rejected => "Rejected"
  | previewed => "Previewed"
  | cancelled => "Cancelled"
  | executed => "Executed"
  | executionFailed => "ExecutionFailed"

def isTerminal (stage : Stage) : Bool := stage != requested && stage != previewed

end Stage

end TemplateBinding.Conversion
