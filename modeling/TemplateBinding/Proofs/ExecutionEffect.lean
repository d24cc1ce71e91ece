import TemplateBinding.Proofs.Execution
import TemplateBinding.Proofs.Planning

/-!
# How an execution ends

An executable conversion takes three steps: files are deleted, the kind is written, the template is
persisted.  The first step that fails ends it.  Each way to end leaves a known part of the files, a
known document and a known report; in particular a node that may not be edited keeps its kind, but
when the kind is written last the files are gone by then.
-/
namespace TemplateBinding
set_option autoImplicit false

namespace FileSet

variable {files next : FileSet} {path : String} {paths gone deleted : List String}
  {fault : FileFault}

/-! ## Deleting several files -/

/-- The path is one of the paths, in one spelling or another. -/
def isAmong (files : FileSet) (paths : List String) (path : String) : Bool :=
  paths.any (files.same path)

/-- The files that are left when some are gone. -/
def without (files : FileSet) (gone : List String) : FileSet :=
  { files with paths := files.paths.filter fun path => !files.isAmong gone path }

/-- No path is spelled twice. -/
def Distinct (files : FileSet) (paths : List String) : Prop :=
  paths.Pairwise fun first second => files.same first second = false

/-- All the paths can be deleted one after the other.  No path can be deleted twice. -/
def CanDelete (files : FileSet) (paths : List String) : Prop :=
  files.Distinct paths ∧
    ∀ path ∈ paths, files.contains path = true ∧ files.isLocked path = false

/-- Deleting the paths in order gets stuck at one of them, when others are deleted already. -/
structure StuckAt (files : FileSet) (paths deleted : List String) (path : String)
    (fault : FileFault) : Prop where
  split : ∃ later, paths = deleted ++ path :: later
  canDelete : files.CanDelete deleted
  fault : (files.without deleted).delete path = .error fault

/-- Deleting the paths in order deletes those before the first that fails, or all of them. -/
def DeletesUpTo (files : FileSet) (paths deleted : List String) : Prop :=
  files.CanDelete paths ∧ deleted = paths ∨ ∃ path fault, files.StuckAt paths deleted path fault

theorem isAmong_congr {other : String} (h : files.same path other = true) :
    files.isAmong paths path = files.isAmong paths other := by
  rw [isAmong, isAmong, show files.same path = files.same other from files.identity.same_congr h]

theorem contains_congr {other : String} (h : files.same path other = true) :
    files.contains path = files.contains other :=
  isAmong_congr h

theorem isAmong_append (first second : List String) (path : String) :
    files.isAmong (first ++ second) path = (files.isAmong first path || files.isAmong second path) :=
  List.any_append

theorem isAmong_of_mem (h : path ∈ paths) : files.isAmong paths path = true :=
  List.any_eq_true.mpr ⟨path, h, files.identity.same_refl path⟩

@[simp] theorem without_nil (files : FileSet) : files.without [] = files := by
  simp [without, isAmong]

theorem without_without (files : FileSet) (first second : List String) :
    (files.without first).without second = files.without (first ++ second) := by
  have hPaths : ((files.without first).without second).paths =
      (files.paths.filter fun path => !files.isAmong first path).filter
        (fun path => !files.isAmong second path) := rfl
  have hBoth : ((files.without first).without second).paths =
      (files.without (first ++ second)).paths := by
    rw [hPaths, List.filter_filter, without]
    simp only [isAmong_append, Bool.not_or, Bool.and_comm]
  exact congrArg (fun paths => { files with paths }) hBoth

theorem without_cons (files : FileSet) (path : String) (gone : List String) :
    files.without (path :: gone) = (files.without [path]).without gone :=
  (files.without_without [path] gone).symm

theorem contains_without (files : FileSet) (gone : List String) (path : String) :
    (files.without gone).contains path = (files.contains path && !files.isAmong gone path) := by
  rw [Bool.eq_iff_iff, Bool.and_eq_true, contains, contains, List.any_eq_true, List.any_eq_true]
  constructor
  · rintro ⟨other, hIn, hSame⟩
    obtain ⟨hOther, hKept⟩ := List.mem_filter.mp hIn
    exact ⟨⟨other, hOther, hSame⟩, (isAmong_congr hSame).symm ▸ hKept⟩
  · rintro ⟨⟨other, hOther, hSame⟩, hKept⟩
    exact ⟨other, List.mem_filter.mpr ⟨hOther, isAmong_congr hSame ▸ hKept⟩, hSame⟩

theorem delete_eq_ok_iff : files.delete path = .ok next ↔
    (files.contains path = true ∧ files.isLocked path = false) ∧ next = files.without [path] := by
  have hRemove : files.remove path = files.without [path] := by
    simp only [remove, without, isAmong, List.any_cons, List.any_nil, Bool.or_false, same,
      files.identity.same_comm path]
  rw [delete, hRemove]
  cases files.isLocked path <;> cases files.contains path <;> simp [eq_comm]

theorem canDelete_nil (files : FileSet) : files.CanDelete [] := by simp [CanDelete, Distinct]

theorem canDelete_cons : files.CanDelete (path :: paths) ↔
    (files.contains path = true ∧ files.isLocked path = false) ∧
      (files.without [path]).CanDelete paths := by
  have hSame : (files.without [path]).Distinct paths ↔ files.Distinct paths := Iff.rfl
  have hLocked (other : String) : (files.without [path]).isLocked other = files.isLocked other := rfl
  have hAmong (other : String) : files.isAmong [path] other = files.same path other := by
    rw [isAmong, List.any_cons, List.any_nil, Bool.or_false]
    exact files.identity.same_comm other path
  rw [CanDelete, CanDelete, hSame, Distinct, List.pairwise_cons, List.forall_mem_cons]
  simp only [hLocked, contains_without, hAmong, Bool.and_eq_true, Bool.not_eq_true']
  constructor
  · rintro ⟨⟨hFresh, hDistinct⟩, hPath, hPaths⟩
    exact ⟨hPath, hDistinct, fun other hOther =>
      ⟨⟨(hPaths other hOther).1, hFresh other hOther⟩, (hPaths other hOther).2⟩⟩
  · rintro ⟨hPath, hDistinct, hPaths⟩
    exact ⟨⟨fun other hOther => (hPaths other hOther).1.2, hDistinct⟩, hPath, fun other hOther =>
      ⟨(hPaths other hOther).1.1, (hPaths other hOther).2⟩⟩

/-- A path is not among others that are deleted before it. -/
theorem Distinct.isAmong_eq_false {later : List String}
    (h : files.Distinct (deleted ++ path :: later)) : files.isAmong deleted path = false := by
  refine List.any_eq_false.mpr fun other hOther => ?_
  have hApart := (List.pairwise_append.mp h).2.2 other hOther path List.mem_cons_self
  rw [same, files.identity.same_comm] at hApart ⊢
  simpa [same, files.identity.same_comm] using hApart

theorem StuckAt.not_canDelete (h : files.StuckAt paths deleted path fault) :
    ¬files.CanDelete paths := by
  obtain ⟨later, rfl⟩ := h.split
  rintro ⟨hDistinct, hPaths⟩
  obtain ⟨hIn, hUnlocked⟩ := hPaths path (by simp)
  have hLeft : (files.without deleted).contains path = true := by
    rw [contains_without, hIn, hDistinct.isAmong_eq_false]
    rfl
  have hOk := delete_eq_ok_iff.mpr ⟨⟨hLeft, hUnlocked⟩, rfl⟩
  rw [h.fault] at hOk
  cases hOk

theorem StuckAt.cons (hPath : files.contains path = true ∧ files.isLocked path = false)
    {other : String} (h : (files.without [path]).StuckAt paths deleted other fault) :
    files.StuckAt (path :: paths) (path :: deleted) other fault where
  split := by
    obtain ⟨later, rfl⟩ := h.split
    exact ⟨later, rfl⟩
  canDelete := canDelete_cons.mpr ⟨hPath, h.canDelete⟩
  fault := by rw [without_cons, h.fault]

end FileSet

namespace Conversion

variable {config : Config} {commit : KindCommit} {before after : MemoryWorkspace}
  {root node : NodeId} {target : Kind} {paths deleted : List String} {failure : Option Error}

theorem deleteFiles_cases (workspace : MemoryWorkspace) (paths : List String) :
    (workspace.files.CanDelete paths ∧ deleteFiles workspace paths =
        ⟨{ workspace with files := workspace.files.without paths }, none⟩) ∨
      ∃ deleted path fault, workspace.files.StuckAt paths deleted path fault ∧
        deleteFiles workspace paths =
          ⟨{ workspace with files := workspace.files.without deleted },
            some (.delete path fault)⟩ := by
  -- Every deletion leaves fewer files for the later ones, so the workspace varies.
  induction paths generalizing workspace with
  | nil => exact .inl ⟨workspace.files.canDelete_nil, by rw [FileSet.without_nil]; rfl⟩
  | cons path paths ih =>
    cases hDelete : workspace.files.delete path with
    | error fault =>
      refine .inr ⟨[], path, fault, ⟨⟨paths, rfl⟩, workspace.files.canDelete_nil, ?_⟩, ?_⟩
      · rw [FileSet.without_nil, hDelete]
      · simp only [deleteFiles, Workspace.deleteFile, hDelete, Except.map, FileSet.without_nil]
    | ok next =>
      obtain ⟨hPath, rfl⟩ := FileSet.delete_eq_ok_iff.mp hDelete
      have hStep : deleteFiles workspace (path :: paths) =
          deleteFiles { workspace with files := workspace.files.without [path] } paths := by
        simp only [deleteFiles, Workspace.deleteFile, hDelete, Except.map]
      rw [hStep]
      rcases ih { workspace with files := workspace.files.without [path] } with
        ⟨hAll, hRun⟩ | ⟨deleted, other, fault, hStuck, hRun⟩
      · rw [hRun, workspace.files.without_cons path paths]
        exact .inl ⟨FileSet.canDelete_cons.mpr ⟨hPath, hAll⟩, rfl⟩
      · rw [hRun]
        refine .inr ⟨path :: deleted, other, fault, hStuck.cons hPath, ?_⟩
        rw [workspace.files.without_cons path deleted]

/-- The ways in which the three steps can end, with the workspace they leave and the failure. -/
inductive Outcome (commit : KindCommit) (before : MemoryWorkspace) (node : NodeId) (target : Kind)
    (paths : List String) : MemoryWorkspace → Option Error → Prop where
  | done {hierarchy : Hierarchy} (written : before.hierarchy.setKind node target = .ok hierarchy)
      (deletable : before.files.CanDelete paths) :
      Outcome commit before node target paths
        ⟨{ hierarchy with persistCount := hierarchy.persistCount + 1 }, before.files.without paths⟩
        none
  | refusedFirst {error : Error} (order : commit = .beforeDeletions)
      (refused : before.hierarchy.setKind node target = .error error) :
      Outcome commit before node target paths before (some error)
  | refusedLast {error : Error} (order : commit = .afterDeletions)
      (refused : before.hierarchy.setKind node target = .error error)
      (deletable : before.files.CanDelete paths) :
      Outcome commit before node target paths
        { before with files := before.files.without paths } (some error)
  | stuckAfterWriting {hierarchy : Hierarchy} {deleted : List String} {path : String}
      {fault : FileFault} (order : commit = .beforeDeletions)
      (written : before.hierarchy.setKind node target = .ok hierarchy)
      (stuck : before.files.StuckAt paths deleted path fault) :
      Outcome commit before node target paths
        ⟨hierarchy, before.files.without deleted⟩ (some (.delete path fault))
  | stuckBeforeWriting {deleted : List String} {path : String} {fault : FileFault}
      (order : commit = .afterDeletions)
      (stuck : before.files.StuckAt paths deleted path fault) :
      Outcome commit before node target paths
        { before with files := before.files.without deleted } (some (.delete path fault))

theorem changeKind_of_ok (before : MemoryWorkspace) {hierarchy : Hierarchy}
    (h : before.hierarchy.setKind node target = .ok hierarchy) :
    changeKind before node target = ⟨{ before with hierarchy }, none⟩ := by
  simp only [changeKind, Workspace.hierarchy, h, Except.map, Progress.step,
    Workspace.withHierarchy]

theorem changeKind_of_error (before : MemoryWorkspace) {error : Error}
    (h : before.hierarchy.setKind node target = .error error) :
    changeKind before node target = ⟨before, some error⟩ := by
  simp only [changeKind, Workspace.hierarchy, h, Except.map, Progress.step]

/-- The root is still there when the kind is written, so persisting cannot fail. -/
theorem persist_of_setKind (files : FileSet) {place : Place Node} {hierarchy : Hierarchy}
    (hRoot : before.hierarchy.place? root = some place)
    (h : before.hierarchy.setKind node target = .ok hierarchy) :
    Workspace.persist (⟨hierarchy, files⟩ : MemoryWorkspace) root =
      (.ok (), ⟨{ hierarchy with persistCount := hierarchy.persistCount + 1 }, files⟩) := by
  have hPlace := Hierarchy.place?_modify before.hierarchy node root (Record.withKind target)
  rw [hRoot] at hPlace
  obtain ⟨_, rfl⟩ := Hierarchy.setKind_eq_ok_iff.mp h
  simp only [Workspace.persist, Hierarchy.persist, Hierarchy.withKind, hPlace, Option.map_some]

theorem outcome_apply (config : Config) (node : NodeId) (target : Kind) {place : Place Node}
    (hRoot : before.hierarchy.place? root = some place) (paths : List String) :
    Outcome config.kindCommit before node target paths
      (apply config before root node target paths).state
      (apply config before root node target paths).failure := by
  rw [apply]
  cases hCommit : config.kindCommit with
  | beforeDeletions =>
    cases hKind : before.hierarchy.setKind node target with
    | error error =>
      simp only [changeKind_of_error before hKind, Progress.andThen]
      exact .refusedFirst rfl hKind
    | ok hierarchy =>
      simp only [changeKind_of_ok before hKind, Progress.andThen]
      rcases deleteFiles_cases { before with hierarchy } paths with
        ⟨hAll, hRun⟩ | ⟨deleted, path, fault, hStuck, hRun⟩
      · simp only [hRun, persist_of_setKind _ hRoot hKind, Progress.ofAnswer]
        exact .done hKind hAll
      · simp only [hRun]
        exact .stuckAfterWriting rfl hKind hStuck
  | afterDeletions =>
    rcases deleteFiles_cases before paths with ⟨hAll, hRun⟩ | ⟨deleted, path, fault, hStuck, hRun⟩
    · cases hKind : before.hierarchy.setKind node target with
      | error error =>
        have hChange := changeKind_of_error
          { before with files := before.files.without paths } hKind
        simp only [hRun, Progress.andThen, hChange]
        exact .refusedLast rfl hKind hAll
      | ok hierarchy =>
        have hChange := changeKind_of_ok
          { before with files := before.files.without paths } hKind
        simp only [hRun, Progress.andThen, hChange, persist_of_setKind _ hRoot hKind, Progress.ofAnswer]
        exact .done hKind hAll
    · simp only [hRun, Progress.andThen]
      exact .stuckBeforeWriting rfl hStuck

/-! ## Executable plans -/

theorem errorMessage_of_canExecute
    (h : (previewIn config before root node target).canExecute = true) :
    (previewIn config before root node target).errorMessage = none :=
  errorMessage_planIn_eq_none_iff.mpr (exists_allowed_of_canExecute h)

theorem exists_root_of_canExecute
    (h : (previewIn config before root node target).canExecute = true) :
    ∃ place, before.hierarchy.place? root = some place := by
  obtain ⟨candidate, hAllowed⟩ := exists_allowed_of_canExecute h
  cases hRoot : before.hierarchy.place? root with
  | some place => exact ⟨place, rfl⟩
  | none =>
    have hFound := hAllowed.found
    have hBuild : BindingTree.build (Workspace.hierarchy before) root = .ofUnknown root := by
      simp only [BindingTree.build, Workspace.hierarchy, hRoot]
    rw [hBuild] at hFound
    cases hFound

/-- What an execution returns and leaves, given how its steps end. -/
theorem outcome_execute (h : (previewIn config before root node target).canExecute = true) :
    ∃ failure, Outcome config.kindCommit before node target
        (previewIn config before root node target).filesToDelete
        (execute config before root node target).2 failure ∧
      (execute config before root node target).1 =
        { previewIn config before root node target with
          success := failure.isNone, errorMessage := failure.map Error.message } := by
  obtain ⟨place, hRoot⟩ := exists_root_of_canExecute h
  have hOutcome := outcome_apply config node target hRoot
    (previewIn config before root node target).filesToDelete
  refine ⟨_, by rw [execute_snd, if_pos h]; exact hOutcome, ?_⟩
  have hMessage := errorMessage_of_canExecute h
  rw [execute]
  dsimp only
  rw [if_pos h]
  split
  · rename_i hFailure
    rw [hFailure, hMessage]
    rfl
  · rename_i hFailure
    rw [hFailure]
    rfl

/-! ## The effect of an execution -/

/-- The error of the first step that fails, in the order in which the steps are taken. -/
inductive FirstFailure (commit : KindCommit) (before : MemoryWorkspace) (node : NodeId)
    (target : Kind) (paths : List String) : Error → Prop where
  | kind {error : Error} (refused : before.hierarchy.setKind node target = .error error)
      (earlier : commit = .afterDeletions → before.files.CanDelete paths) :
      FirstFailure commit before node target paths error
  | deletion {deleted : List String} {path : String} {fault : FileFault}
      (stuck : before.files.StuckAt paths deleted path fault)
      (earlier : commit = .beforeDeletions → (before.hierarchy.setKind node target).isOk) :
      FirstFailure commit before node target paths (.delete path fault)

/-- What executing an executable plan does. -/
structure Effect (commit : KindCommit) (node : NodeId) (target : Kind) (plan : Report)
    (before : MemoryWorkspace) (report : Report) (after : MemoryWorkspace) : Prop where
  /-- The report is the plan but for the fields that tell how the execution went. -/
  samePlan : { report with success := plan.success, errorMessage := plan.errorMessage } = plan
  filesKept : commit = .beforeDeletions → (before.hierarchy.setKind node target).isOk = false →
    after.files = before.files
  filesDeleted : commit = .afterDeletions ∨ (before.hierarchy.setKind node target).isOk = true →
    ∃ deleted, before.files.DeletesUpTo plan.filesToDelete deleted ∧
      after.files = before.files.without deleted
  /-- The document differs at most in the kind of the node. -/
  document : after.hierarchy.document = before.hierarchy.document ∨
    after.hierarchy.document = (before.hierarchy.withKind node target).document
  kindWritten : (before.hierarchy.setKind node target).isOk = true →
    commit = .beforeDeletions ∨ before.files.CanDelete plan.filesToDelete →
      after.hierarchy.document = (before.hierarchy.withKind node target).document
  kindKept : (before.hierarchy.setKind node target).isOk = false ∨
      commit = .afterDeletions ∧ ¬before.files.CanDelete plan.filesToDelete →
    after.hierarchy.document = before.hierarchy.document
  success_iff_message : report.success = true ↔ report.errorMessage = none
  success_iff_steps : report.success = true ↔
    before.files.CanDelete plan.filesToDelete ∧
      (before.hierarchy.setKind node target).isOk = true
  success : report.success = true →
    (after.hierarchy.binding node).map (fun binding => binding.kind) = some target ∧
      after.hierarchy.persistCount = before.hierarchy.persistCount + 1
  failure : report.success = false →
    after.hierarchy.persistCount = before.hierarchy.persistCount ∧
      ∃ error, FirstFailure commit before node target plan.filesToDelete error ∧
        report.errorMessage = some error.message

theorem Outcome.effect {plan : Report}
    (h : Outcome commit before node target plan.filesToDelete after failure) :
    Effect commit node target plan before
      { plan with success := failure.isNone, errorMessage := failure.map Error.message } after := by
  have hOk {hierarchy : Hierarchy}
      (written : before.hierarchy.setKind node target = .ok hierarchy) :
      (before.hierarchy.setKind node target).isOk = true := by rw [written]; rfl
  have hError {error : Error} (refused : before.hierarchy.setKind node target = .error error) :
      (before.hierarchy.setKind node target).isOk = false := by rw [refused]; rfl
  cases h with
  | done written deletable =>
    obtain ⟨⟨place, hPlace, _, hBound⟩, rfl⟩ := Hierarchy.setKind_eq_ok_iff.mp written
    have hKind : ((before.hierarchy.withKind node target).binding node).map
        (fun binding => binding.kind) = some target := by
      obtain ⟨binding, hBinding⟩ := Option.isSome_iff_exists.mp hBound
      rw [Hierarchy.binding_withKind, Hierarchy.binding, hPlace, Option.bind_some, hBinding]
      rfl
    exact
      { samePlan := rfl
        filesKept := by simp [hOk written]
        filesDeleted := fun _ => ⟨_, .inl ⟨deletable, rfl⟩, rfl⟩
        document := .inr rfl
        kindWritten := fun _ _ => rfl
        kindKept := by simp [hOk written, deletable]
        success_iff_message := by simp
        success_iff_steps := by simp [hOk written, deletable]
        success := fun _ => ⟨hKind, rfl⟩
        failure := by simp }
  | @refusedFirst error order refused =>
    exact
      { samePlan := rfl
        filesKept := fun _ _ => rfl
        filesDeleted := by simp [order, hError refused]
        document := .inl rfl
        kindWritten := by simp [hError refused]
        kindKept := fun _ => rfl
        success_iff_message := by simp
        success_iff_steps := by simp [hError refused]
        success := by simp
        failure := fun _ => ⟨rfl, error, .kind refused (by simp [order]), rfl⟩ }
  | @refusedLast error order refused deletable =>
    exact
      { samePlan := rfl
        filesKept := by simp [order]
        filesDeleted := fun _ => ⟨_, .inl ⟨deletable, rfl⟩, rfl⟩
        document := .inl rfl
        kindWritten := by simp [hError refused]
        kindKept := fun _ => rfl
        success_iff_message := by simp
        success_iff_steps := by simp [hError refused]
        success := by simp
        failure := fun _ => ⟨rfl, error, .kind refused fun _ => deletable, rfl⟩ }
  | @stuckAfterWriting hierarchy deleted path fault order written stuck =>
    obtain ⟨_, rfl⟩ := Hierarchy.setKind_eq_ok_iff.mp written
    exact
      { samePlan := rfl
        filesKept := by simp [hOk written]
        filesDeleted := fun _ => ⟨deleted, .inr ⟨path, fault, stuck⟩, rfl⟩
        document := .inr rfl
        kindWritten := fun _ _ => rfl
        kindKept := by simp [hOk written, order]
        success_iff_message := by simp
        success_iff_steps := by simp [stuck.not_canDelete]
        success := by simp
        failure := fun _ => ⟨rfl, _, .deletion stuck fun _ => hOk written, rfl⟩ }
  | @stuckBeforeWriting deleted path fault order stuck =>
    exact
      { samePlan := rfl
        filesKept := by simp [order]
        filesDeleted := fun _ => ⟨deleted, .inr ⟨path, fault, stuck⟩, rfl⟩
        document := .inl rfl
        kindWritten := by simp [order, stuck.not_canDelete]
        kindKept := fun _ => rfl
        success_iff_message := by simp
        success_iff_steps := by simp [stuck.not_canDelete]
        success := by simp
        failure := fun _ => ⟨rfl, _, .deletion stuck (by simp [order]), rfl⟩ }

theorem effect_execute (h : (previewIn config before root node target).canExecute = true) :
    Effect config.kindCommit node target (previewIn config before root node target) before
      (execute config before root node target).1 (execute config before root node target).2 := by
  obtain ⟨failure, hOutcome, hReport⟩ := outcome_execute h
  rw [hReport]
  exact hOutcome.effect

theorem execute_of_not_canExecute
    (h : (previewIn config before root node target).canExecute = false) :
    execute config before root node target =
      (previewIn config before root node target, before) := by
  have hRefused : ¬(previewIn config before root node target).canExecute = true := by simp [h]
  exact if_neg hRefused

/-- An execution does nothing unless the plan can be executed, and then its effect is known. -/
theorem execute_exact (config : Config) (before : MemoryWorkspace) (root node : NodeId)
    (target : Kind) :
    let plan := previewIn config before root node target
    let result := execute config before root node target
    (plan.canExecute = false → result = (plan, before)) ∧
      (plan.canExecute = true →
        Effect config.kindCommit node target plan before result.1 result.2) :=
  ⟨execute_of_not_canExecute, effect_execute⟩

/-! ## Nodes that may not be edited -/

theorem setKind_of_readOnly (target : Kind) {hierarchy : Hierarchy} {place : Place Node}
    (hPlace : hierarchy.place? node = some place) (hReadOnly : place.value.readOnly = true) :
    hierarchy.setKind node target = .error (.readOnly node) := by
  simp only [Hierarchy.setKind, Hierarchy.writable, hPlace, hReadOnly, if_true]

/-- Nothing but files changes, and files only when the kind is written last. -/
theorem execute_readOnly (config : Config) (before : MemoryWorkspace) (root node : NodeId)
    (target : Kind) {place : Place Node} (hPlace : before.hierarchy.place? node = some place)
    (hReadOnly : place.value.readOnly = true) :
    let plan := previewIn config before root node target
    let result := execute config before root node target
    result.1.success = false ∧ result.2.hierarchy = before.hierarchy ∧
      (config.kindCommit = .beforeDeletions ∨ plan.canExecute = false →
        result.2.files = before.files) ∧
      (config.kindCommit = .afterDeletions → plan.canExecute = true →
        ∃ deleted, before.files.DeletesUpTo plan.filesToDelete deleted ∧
          result.2.files = before.files.without deleted) := by
  intro plan result
  have hRefused : (before.hierarchy.setKind node target).isOk = false := by
    rw [setKind_of_readOnly target hPlace hReadOnly]
    rfl
  cases hPlan : plan.canExecute with
  | false =>
    have hResult : result = (plan, before) := execute_of_not_canExecute hPlan
    rw [hResult]
    exact ⟨success_previewIn config before root node target, rfl, fun _ => rfl, by simp⟩
  | true =>
    have hEffect : Effect config.kindCommit node target plan before result.1 result.2 :=
      effect_execute hPlan
    have hFailed : result.1.success = false := by
      rw [← Bool.not_eq_true, hEffect.success_iff_steps, hRefused]
      simp
    refine ⟨hFailed, ?_, ?_, fun hOrder _ => hEffect.filesDeleted (.inl hOrder)⟩
    · have hDocument := hEffect.kindKept (.inl hRefused)
      have hCount := (hEffect.failure hFailed).1
      exact congrArg₂ Hierarchy.mk hDocument hCount
    · intro hOrder
      exact hEffect.filesKept (hOrder.resolve_right (by simp)) hRefused

/-- A template with an element that may not be edited, and a file of this element. -/
def fixedInventory : MemoryWorkspace where
  hierarchy := ⟨⟨{ label := "Hud" },
    .cons { label := "Inventory", readOnly := true
            binding := some ⟨.element, "Inventory", "InventoryView", none⟩ } .nil .nil⟩, 0⟩
  files := { paths := ["Assets/Scripts/UI/Hud/Inventory.cs"] }

theorem execute_readOnly_fixedInventory :
    let plan := previewIn { kindCommit := .afterDeletions } fixedInventory 0 1 .member
    let result := execute { kindCommit := .afterDeletions } fixedInventory 0 1 .member
    (∃ place, fixedInventory.hierarchy.place? 1 = some place ∧ place.value.readOnly = true) ∧
      plan.canExecute = true ∧ result.1.success = false ∧
      result.2.hierarchy = fixedInventory.hierarchy ∧
      ∃ deleted, fixedInventory.files.DeletesUpTo plan.filesToDelete deleted ∧
        result.2.files = fixedInventory.files.without deleted := by
  have hPlace : ∃ place, fixedInventory.hierarchy.place? 1 = some place ∧
      place.value.readOnly = true := ⟨_, rfl, rfl⟩
  have hPlan : (previewIn { kindCommit := .afterDeletions } fixedInventory 0 1
      .member).canExecute = true := by decide +kernel
  refine ⟨hPlace, hPlan, ?_⟩
  obtain ⟨place, hPlace, hReadOnly⟩ := hPlace
  obtain ⟨hFailed, hHierarchy, _, hFiles⟩ :=
    execute_readOnly { kindCommit := .afterDeletions } fixedInventory 0 1 .member hPlace hReadOnly
  exact ⟨hFailed, hHierarchy, hFiles rfl hPlan⟩

/-- The file is deleted before the kind turns out to be fixed. -/
theorem not_forall_readOnly_unchanged :
    ¬∀ (config : Config) (before : MemoryWorkspace) (root node : NodeId) (target : Kind)
      (place : Place Node), before.hierarchy.place? node = some place →
      place.value.readOnly = true →
      let result := execute config before root node target
      result.1.success = false ∧ result.2.hierarchy = before.hierarchy ∧
        ∀ path, path ∈ result.2.files.paths ↔ path ∈ before.files.paths := by
  intro h
  have hPlace : ∃ place, fixedInventory.hierarchy.place? 1 = some place ∧
      place.value.readOnly = true := ⟨_, rfl, rfl⟩
  obtain ⟨place, hPlace, hReadOnly⟩ := hPlace
  obtain ⟨_, _, hFiles⟩ :=
    h { kindCommit := .afterDeletions } fixedInventory 0 1 .member place hPlace hReadOnly
  have hGone : "Assets/Scripts/UI/Hud/Inventory.cs" ∉
      (execute { kindCommit := .afterDeletions } fixedInventory 0 1 .member).2.files.paths := by
    decide +kernel
  exact hGone ((hFiles _).mpr (by decide))

end Conversion

end TemplateBinding
