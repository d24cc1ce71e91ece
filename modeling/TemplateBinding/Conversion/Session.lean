import TemplateBinding.Conversion.Execution

/-!
# Conversion sessions

A session leads one conversion through its stages.  A preview may be repeated, and only a previewed
session may be cancelled or executed.  A call in the wrong stage fails and changes nothing.
-/
namespace TemplateBinding.Conversion
set_option autoImplicit false

structure Session where
  node : NodeId
  target : Kind
  stage : Stage := .requested
  report : Option Report := none
  deriving Repr, DecidableEq

namespace Session

variable {σ : Type} [Workspace σ]

def refuse (session : Session) (next : Stage) : Error :=
  .invalidTransition session.target session.stage next

def preview (config : Config) (state : σ) (root : NodeId) (session : Session) :
    Except Error (Report × Session) :=
  if session.stage = .requested ∨ session.stage = .previewed then
    let report := previewIn config state root session.node session.target
    let stage := if report.canExecute then Stage.previewed else .rejected
    .ok (report, { session with stage, report := some report })
  else .error (session.refuse .previewed)

def cancel (session : Session) : Except Error Session :=
  if session.stage = .previewed then .ok { session with stage := .cancelled }
  else .error (session.refuse .cancelled)

def execute (config : Config) (state : σ) (root : NodeId) (session : Session) :
    Except Error (Report × Session × σ) :=
  if session.stage = .previewed then
    let (report, state) := Conversion.execute config state root session.node session.target
    let stage :=
      if !report.canExecute then Stage.rejected
      else if report.success then .executed
      else .executionFailed
    .ok (report, { session with stage, report := some report }, state)
  else .error (session.refuse .executed)

end Session

end TemplateBinding.Conversion
