import TemplateBinding.Kind

/-!
# Impact reports

What changing the kind of one node means for the generated files, and how an attempt to do so went.
-/
namespace TemplateBinding.Conversion
set_option autoImplicit false

structure Report where
  /-- There is none when the node carries no binding. -/
  sourceKind : Option Kind
  targetKind : Kind
  filesToCreate : List String := []
  filesToModify : List String := []
  filesToDelete : List String := []
  hasNameConflict : Bool := false
  conflictPath : Option String := none
  canExecute : Bool := false
  success : Bool := false
  errorMessage : Option String := none
  deriving Repr, DecidableEq

namespace Report

/-- The plan can be executed when no file is in the way and nothing else speaks against it. -/
def sealed (report : Report) : Report :=
  { report with canExecute := !report.hasNameConflict && report.errorMessage.isNone }

def rejected (source : Option Kind) (target : Kind) (reason : String) : Report :=
  { sourceKind := source, targetKind := target, errorMessage := some reason }

def toJson (report : Report) : Json := .object [
  ("sourceKind", Json.ofOption Kind.toJson report.sourceKind),
  ("targetKind", report.targetKind.toJson),
  ("filesToCreate", Json.strings report.filesToCreate),
  ("filesToModify", Json.strings report.filesToModify),
  ("filesToDelete", Json.strings report.filesToDelete),
  ("hasNameConflict", .bool report.hasNameConflict),
  ("conflictPath", Json.ofOption .string report.conflictPath),
  ("canExecute", .bool report.canExecute),
  ("success", .bool report.success),
  ("errorMessage", Json.ofOption .string report.errorMessage)]

def decode (limit : Nat) (json : Json) : Option Report := do
  let names := ["sourceKind", "targetKind", "filesToCreate", "filesToModify", "filesToDelete",
    "hasNameConflict", "conflictPath", "canExecute", "success", "errorMessage"]
  let (fields, limit) ← Json.record? names limit json
  let sourceKind ← fields.optional "sourceKind" (Kind.decode limit)
  let targetKind ← fields.required "targetKind" (Kind.decode limit)
  let filesToCreate ← fields.required "filesToCreate" (Json.strings? limit)
  let filesToModify ← fields.required "filesToModify" (Json.strings? limit)
  let filesToDelete ← fields.required "filesToDelete" (Json.strings? limit)
  let hasNameConflict ← fields.required "hasNameConflict" Json.bool?
  let conflictPath ← fields.optional "conflictPath" Json.string?
  let canExecute ← fields.required "canExecute" Json.bool?
  let success ← fields.required "success" Json.bool?
  let errorMessage ← fields.optional "errorMessage" Json.string?
  return { sourceKind, targetKind, filesToCreate, filesToModify, filesToDelete, hasNameConflict,
           conflictPath, canExecute, success, errorMessage }

end Report

end TemplateBinding.Conversion
