import TemplateBinding.Proofs.OwnDirectories
import TemplateBinding.Proofs.Undoing

/-!
# Conversions without locks

An executable plan deletes files that exist.  So without locks a deletion fails only on a file that
the plan lists twice, and it lists a file twice only if the primary and the companion file of the
type are one.  In all other cases the conversion succeeds.  When locks stop a conversion that writes
the kind last, a second execution without them deletes the rest and ends where the first would have.
-/
namespace TemplateBinding
set_option autoImplicit false

namespace FileSet

variable {files : FileSet} {paths deleted : List String} {path : String} {fault : FileFault}

/-! ## Files without locks -/

/-- Takes away the locks, one after the other. -/
def unlockAll (files : FileSet) : FileSet := files.locked.foldl unlock files

theorem foldl_unlock (files : FileSet) (paths : List String) :
    paths.foldl unlock files =
      { files with locked := files.locked.filter fun path => !files.isAmong paths path } := by
  induction paths generalizing files with
  | nil => simp [isAmong]
  | cons path paths ih =>
    have hLocked : (files.unlock path).locked = files.locked.filter
        fun other => !files.same path other := rfl
    have hAmong (other : String) : files.isAmong (path :: paths) other =
        (files.same path other || files.isAmong paths other) := by
      rw [isAmong, List.any_cons, isAmong, same, same, files.identity.same_comm]
    rw [List.foldl_cons, ih, hLocked, List.filter_filter]
    refine congrArg (fun locked => { files with locked }) (List.filter_congr fun other _ => ?_)
    rw [hAmong, Bool.not_or, Bool.and_comm]
    rfl

theorem unlockAll_eq (files : FileSet) : files.unlockAll = { files with locked := [] } := by
  rw [unlockAll, foldl_unlock]
  have hNone : (files.locked.filter fun path => !files.isAmong files.locked path) = [] := by
    refine List.filter_eq_nil_iff.mpr fun path hPath => ?_
    rw [isAmong_of_mem hPath]
    decide
  rw [hNone]

theorem locked_unlockAll (files : FileSet) : files.unlockAll.locked = [] := by
  rw [unlockAll_eq]

theorem distinct_unlockAll_iff : files.unlockAll.Distinct paths ↔ files.Distinct paths := by
  rw [unlockAll_eq]
  rfl

theorem unlockAll_without (files : FileSet) (gone : List String) :
    (files.without gone).unlockAll = files.unlockAll.without gone := by
  rw [unlockAll_eq, unlockAll_eq]
  rfl

theorem without_congr (files : FileSet) {first second : List String}
    (h : ∀ path, files.isAmong first path = files.isAmong second path) :
    files.without first = files.without second := by
  simp only [without, h]

theorem canDelete_iff_distinct (hUnlocked : files.locked = [])
    (hPaths : ∀ path ∈ paths, files.contains path = true) :
    files.CanDelete paths ↔ files.Distinct paths := by
  refine ⟨fun h => h.1, fun hDistinct => ⟨hDistinct, fun path hPath => ⟨hPaths path hPath, ?_⟩⟩⟩
  rw [isLocked, hUnlocked]
  rfl

theorem StuckAt.mem (h : files.StuckAt paths deleted path fault) : path ∈ paths := by
  obtain ⟨later, rfl⟩ := h.split
  exact List.mem_append_right _ List.mem_cons_self

/-- A file that exists cannot be deleted because it is locked or because it was deleted before. -/
theorem StuckAt.cause (h : files.StuckAt paths deleted path fault)
    (hPaths : ∀ path ∈ paths, files.contains path = true) :
    files.isLocked path = true ∧ fault = .locked ∨
      files.isLocked path = false ∧ files.isAmong deleted path = true ∧ fault = .absent := by
  have hFault := h.fault
  have hLocks : (files.without deleted).isLocked path = files.isLocked path := rfl
  rw [delete, hLocks, contains_without, hPaths path h.mem, Bool.true_and] at hFault
  cases hLocked : files.isLocked path with
  | true =>
    rw [hLocked, if_pos rfl] at hFault
    exact .inl ⟨rfl, (Except.error.inj hFault).symm⟩
  | false =>
    rw [hLocked, if_neg (by decide)] at hFault
    split at hFault
    · cases hFault
    · rename_i hGone
      exact .inr ⟨rfl, by simpa using hGone, (Except.error.inj hFault).symm⟩

theorem StuckAt.absent_of_unlocked (h : files.StuckAt paths deleted path fault)
    (hPaths : ∀ path ∈ paths, files.contains path = true) (hUnlocked : files.locked = []) :
    files.isAmong deleted path = true ∧ fault = .absent := by
  obtain ⟨hLocked, _⟩ | ⟨_, hDeleted, hAbsent⟩ := h.cause hPaths
  · rw [isLocked, hUnlocked] at hLocked
    cases hLocked
  · exact ⟨hDeleted, hAbsent⟩

theorem StuckAt.locked_of_distinct (h : files.StuckAt paths deleted path fault)
    (hPaths : ∀ path ∈ paths, files.contains path = true) (hDistinct : files.Distinct paths) :
    files.isLocked path = true ∧ fault = .locked := by
  obtain hLocked | ⟨_, hDeleted, _⟩ := h.cause hPaths
  · exact hLocked
  · obtain ⟨later, rfl⟩ := h.split
    rw [hDistinct.isAmong_eq_false] at hDeleted
    cases hDeleted

end FileSet

def MemoryWorkspace.unlockAll (workspace : MemoryWorkspace) : MemoryWorkspace :=
  { workspace with files := workspace.files.unlockAll }

namespace Artifact

variable {config : Config} {template name : String} {kind : Kind} {pair : ArtifactPair}

theorem exists_filesOf_of_default (hTemplates : config.pathTemplates = {})
    (h : ofKind? config template kind name = some pair) : ∃ base, pair = filesOf base := by
  rw [ofKind?, hTemplates] at h
  cases kind with
  | member => cases h
  | leaf => cases h
  | element => exact ⟨_, (Option.some.inj h).symm.trans (renderBoth_filesOf config template name
      (baseTemplate (some .element)))⟩
  | component => exact ⟨_, (Option.some.inj h).symm.trans (renderBoth_filesOf config template name
      (baseTemplate (some .component)))⟩

/-- The files of a type are different files with whatever their paths begin. -/
theorem same_filesOf (identity : Identity) (base : String) :
    identity.same (filesOf base).primary (filesOf base).companion = false := by
  have hPair : filesOf base = ⟨base ++ ".cs", base ++ ".Designer.cs"⟩ := by
    rw [filesOf, String.append_assoc]
    rfl
  have hSuffix : ".cs" ≠ ".Designer.cs" := by decide
  rw [hPair]
  cases identity with
  | text => exact beq_eq_false_iff_ne.mpr (mt (String.append_right_inj base).mp hSuffix)
  | components =>
    refine Bool.eq_false_iff.mpr (mt (fun hSame => ?_) hSuffix)
    exact PathName.eq_of_same_append (by decide) (by decide) (by decide) (by decide) hSame

end Artifact

namespace Conversion

variable {config : Config} {hierarchy : Hierarchy} {root node : NodeId} {target : Kind}
  {tree : BindingTree} {candidate : Candidate} {fileExists : String → Bool} {path : String}

/-! ## Plans that list a file twice -/

/-- The primary and the companion file of the type of a node are one file, in one spelling or in
two. -/
def SharesFile (config : Config) (workspace : MemoryWorkspace) (root node : NodeId)
    (pair : ArtifactPair) : Prop :=
  (∃ binding, workspace.hierarchy.binding node = some binding ∧
    Artifact.ofKind? config (BindingTree.build workspace.hierarchy root).templateName binding.kind
      binding.name = some pair) ∧
    workspace.files.same pair.primary pair.companion = true

theorem not_sharesFile_of_default (hTemplates : config.pathTemplates = {})
    (workspace : MemoryWorkspace) (root node : NodeId) (pair : ArtifactPair) :
    ¬SharesFile config workspace root node pair := by
  rintro ⟨⟨binding, _, hFiles⟩, hSame⟩
  obtain ⟨base, rfl⟩ := Artifact.exists_filesOf_of_default hTemplates hFiles
  rw [FileSet.same, Artifact.same_filesOf] at hSame
  cases hSame

theorem distinct_filesToDelete_iff {files : FileSet} :
    files.Distinct (plan config tree files.contains candidate target).filesToDelete ↔
      ∀ pair, Artifact.ofKind? config tree.templateName candidate.binding.kind
        candidate.binding.name = some pair → files.same pair.primary pair.companion = true →
          files.contains pair.primary = false := by
  have hDeleted : (plan config tree files.contains candidate target).filesToDelete =
      (ownPaths config tree.templateName candidate.binding.kind candidate.binding.name).filter
        files.contains := rfl
  rw [hDeleted, ownPaths, FileSet.Distinct]
  cases Artifact.ofKind? config tree.templateName candidate.binding.kind candidate.binding.name with
  | none => simp
  | some pair =>
    obtain ⟨primary, companion⟩ := pair
    rw [Option.elim_some, ArtifactPair.both]
    cases hSame : files.same primary companion with
    | false =>
      have hDistinct : [primary, companion].Pairwise
          fun first second => files.same first second = false := by simp [hSame]
      refine iff_of_true (hDistinct.filter files.contains) ?_
      intro pair hPair hShared
      obtain rfl := Option.some.inj hPair
      rw [hSame] at hShared
      cases hShared
    | true =>
      have hExists := (FileSet.contains_congr hSame).symm
      cases hPrimary : files.contains primary with
      | true => simp [hPrimary, hExists, hSame]
      | false => simp [hPrimary, hExists]

variable {before : MemoryWorkspace}

theorem Allowed.sharesFile_iff {pair : ArtifactPair}
    (h : Allowed config (.build before.hierarchy root) node target candidate) :
    SharesFile config before root node pair ↔
      Artifact.ofKind? config (BindingTree.build before.hierarchy root).templateName
        candidate.binding.kind candidate.binding.name = some pair ∧
          before.files.same pair.primary pair.companion = true := by
  have hBinding := (BindingTree.binding_of_find? h.found).trans h.bound
  rw [SharesFile]
  simp only [hBinding, Option.some.injEq, exists_eq_left']

theorem exists_allowed_of_previewIn
    (hPlan : (previewIn config before root node target).canExecute = true) :
    ∃ candidate, Allowed config (.build before.hierarchy root) node target candidate :=
  exists_allowed_of_canExecute hPlan

theorem contains_of_mem_filesToDelete
    (hPlan : (previewIn config before root node target).canExecute = true) :
    ∀ path ∈ (previewIn config before root node target).filesToDelete,
      before.files.contains path = true := by
  intro path hPath
  obtain ⟨candidate, hAllowed⟩ := exists_allowed_of_previewIn hPlan
  rw [previewIn_of_allowed hAllowed] at hPath
  exact (mem_filesToDelete_plan.mp hPath).2

theorem distinct_filesToDelete_previewIn_iff
    (hPlan : (previewIn config before root node target).canExecute = true) :
    before.files.Distinct (previewIn config before root node target).filesToDelete ↔
      ∀ pair, SharesFile config before root node pair →
        before.files.contains pair.primary = false := by
  obtain ⟨candidate, hAllowed⟩ := exists_allowed_of_previewIn hPlan
  rw [previewIn_of_allowed hAllowed, distinct_filesToDelete_iff]
  simp only [hAllowed.sharesFile_iff, and_imp]

theorem filesToDelete_of_sharesFile {pair : ArtifactPair}
    (hPlan : (previewIn config before root node target).canExecute = true)
    (hShared : SharesFile config before root node pair)
    (hExists : before.files.contains pair.primary = true) :
    (previewIn config before root node target).filesToDelete = [pair.primary, pair.companion] := by
  obtain ⟨candidate, hAllowed⟩ := exists_allowed_of_previewIn hPlan
  have hDeleted : (previewIn config before root node target).filesToDelete =
      (ownPaths config (BindingTree.build before.hierarchy root).templateName candidate.binding.kind
        candidate.binding.name).filter before.files.contains := by
    rw [previewIn_of_allowed hAllowed]
    rfl
  obtain ⟨hPair, hSame⟩ := hAllowed.sharesFile_iff.mp hShared
  have hCompanion : before.files.contains pair.companion = true := by
    rw [← FileSet.contains_congr hSame, hExists]
  rw [hDeleted, ownPaths, hPair, Option.elim_some, ArtifactPair.both]
  simp [hExists, hCompanion]

/-! ## Executions without locks -/

theorem editable_of_canExecute {place : Place Node}
    (hPlan : (previewIn config before root node target).canExecute = true)
    (hPlace : before.hierarchy.place? node = some place)
    (hWritable : place.value.readOnly = false) : before.hierarchy.Editable node := by
  obtain ⟨candidate, hAllowed⟩ := exists_allowed_of_previewIn hPlan
  have hBinding := (BindingTree.binding_of_find? hAllowed.found).trans hAllowed.bound
  rw [Hierarchy.binding, hPlace, Option.bind_some] at hBinding
  exact ⟨place, hPlace, hWritable, by rw [hBinding, Option.isSome_some]⟩

theorem success_iff_distinct (hPlan : (previewIn config before root node target).canExecute = true)
    (hEditable : before.hierarchy.Editable node) (hUnlocked : before.files.locked = []) :
    (execute config before root node target).1.success = true ↔
      before.files.Distinct (previewIn config before root node target).filesToDelete := by
  have hPaths := contains_of_mem_filesToDelete hPlan
  rw [(effect_execute hPlan).success_iff_steps, FileSet.canDelete_iff_distinct hUnlocked hPaths,
    and_iff_left (hEditable.isOk_setKind target)]

/-- An execution of an editable node fails only at a file.  What it leaves depends on when the kind is
written. -/
theorem exists_stuck_of_failure
    (hPlan : (previewIn config before root node target).canExecute = true)
    (hEditable : before.hierarchy.Editable node)
    (hFailed : (execute config before root node target).1.success = false) :
    ∃ deleted path fault,
      before.files.StuckAt (previewIn config before root node target).filesToDelete deleted path
        fault ∧
      (execute config before root node target).1.errorMessage =
        some (Error.delete path fault).message ∧
      (config.kindCommit = .afterDeletions →
        (execute config before root node target).2 =
          { before with files := before.files.without deleted }) := by
  have hOk := hEditable.isOk_setKind target
  obtain ⟨failure, hOutcome, hReport⟩ := outcome_execute hPlan
  rw [hReport] at hFailed ⊢
  generalize (execute config before root node target).2 = after at hOutcome ⊢
  cases hOutcome with
  | done => cases hFailed
  | refusedFirst _ refused =>
    rw [refused] at hOk
    cases hOk
  | refusedLast _ refused _ =>
    rw [refused] at hOk
    cases hOk
  | stuckAfterWriting order _ stuck =>
    refine ⟨_, _, _, stuck, rfl, ?_⟩
    intro hLast
    rw [order] at hLast
    cases hLast
  | stuckBeforeWriting _ stuck => exact ⟨_, _, _, stuck, rfl, fun _ => rfl⟩

/-- Without locks an executable conversion succeeds, but for a type whose two files are one file
that exists: it is deleted once and then missing. -/
theorem execute_unlocked (config : Config) (before : MemoryWorkspace) (root node : NodeId)
    (target : Kind) {place : Place Node} (hPlace : before.hierarchy.place? node = some place)
    (hWritable : place.value.readOnly = false) (hUnlocked : before.files.locked = [])
    (hPlan : (previewIn config before root node target).canExecute = true) :
    let result := execute config before root node target
    (result.1.success = true ↔ ∀ pair, SharesFile config before root node pair →
      before.files.contains pair.primary = false) ∧
    (∀ pair, SharesFile config before root node pair →
      before.files.contains pair.primary = true →
        result.1.errorMessage = some (Error.delete pair.companion .absent).message) ∧
    (config.pathTemplates = {} → result.1.success = true) := by
  intro result
  have hEditable := editable_of_canExecute hPlan hPlace hWritable
  have hSuccess : result.1.success = true ↔ ∀ pair, SharesFile config before root node pair →
      before.files.contains pair.primary = false :=
    (success_iff_distinct hPlan hEditable hUnlocked).trans
      (distinct_filesToDelete_previewIn_iff hPlan)
  refine ⟨hSuccess, ?_, ?_⟩
  · intro pair hShared hExists
    have hFailed : result.1.success = false := by
      rw [← Bool.not_eq_true, hSuccess]
      intro h
      rw [h pair hShared] at hExists
      cases hExists
    obtain ⟨deleted, stuck, fault, hStuck, hMessage, _⟩ :=
      exists_stuck_of_failure hPlan hEditable hFailed
    have hPaths := contains_of_mem_filesToDelete hPlan
    obtain ⟨hDeleted, rfl⟩ := hStuck.absent_of_unlocked hPaths hUnlocked
    -- Something is deleted before, and there are two paths, so it is the second that fails.
    obtain ⟨later, hSplit⟩ := hStuck.split
    rw [filesToDelete_of_sharesFile hPlan hShared hExists] at hSplit
    obtain rfl : stuck = pair.companion := by
      match deleted with
      | [] => cases hDeleted
      | [_] => exact (List.cons.inj (List.cons.inj hSplit).2).1.symm
      | _ :: _ :: _ => exact absurd (congrArg List.length hSplit) (by simp)
    exact hMessage
  · intro hTemplates
    refine hSuccess.mpr fun pair hShared => ?_
    exact absurd hShared (not_sharesFile_of_default hTemplates before root node pair)

/-- Templates that give a type one file. -/
def oneFileEach : Config where
  pathTemplates := { element := ⟨"Gen/\x7bname\x7d.cs", "Gen/\x7bname\x7d.cs"⟩ }

def generatedInventory : MemoryWorkspace where
  hierarchy := ⟨⟨{ label := "Hud" },
    .cons { label := "Inventory", binding := some ⟨.element, "Inventory", "InventoryView", none⟩ }
      .nil .nil⟩, 0⟩
  files := { paths := ["Gen/Inventory.cs"] }

theorem execute_unlocked_generatedInventory :
    let result := execute oneFileEach generatedInventory 0 1 .member
    (previewIn oneFileEach generatedInventory 0 1 .member).canExecute = true ∧
      SharesFile oneFileEach generatedInventory 0 1 ⟨"Gen/Inventory.cs", "Gen/Inventory.cs"⟩ ∧
      result.1.errorMessage = some (Error.delete "Gen/Inventory.cs" .absent).message ∧
      (execute {} generatedInventory 0 1 .member).1.success = true := by
  intro result
  have hPlace : ∃ place, generatedInventory.hierarchy.place? 1 = some place ∧
      place.value.readOnly = false := ⟨_, rfl, rfl⟩
  have hPlan : (previewIn oneFileEach generatedInventory 0 1 .member).canExecute = true := by
    decide +kernel
  have hDefault : (previewIn {} generatedInventory 0 1 .member).canExecute = true := by
    decide +kernel
  have hShared : SharesFile oneFileEach generatedInventory 0 1
      ⟨"Gen/Inventory.cs", "Gen/Inventory.cs"⟩ :=
    ⟨⟨_, rfl, by decide +kernel⟩, generatedInventory.files.identity.same_refl _⟩
  have hExists : generatedInventory.files.contains "Gen/Inventory.cs" = true := by decide +kernel
  obtain ⟨place, hPlace, hWritable⟩ := hPlace
  obtain ⟨_, hMessage, _⟩ :=
    execute_unlocked oneFileEach generatedInventory 0 1 .member hPlace hWritable rfl hPlan
  obtain ⟨_, _, hSuccess⟩ :=
    execute_unlocked {} generatedInventory 0 1 .member hPlace hWritable rfl hDefault
  exact ⟨hPlan, hShared, hMessage ⟨_, _⟩ hShared hExists, hSuccess rfl⟩

/-- The one file is listed twice, and it is gone when it is deleted the second time. -/
theorem not_forall_unlocked_success :
    ¬∀ (config : Config) (before : MemoryWorkspace) (root node : NodeId) (target : Kind)
      (place : Place Node), before.hierarchy.place? node = some place →
      place.value.readOnly = false → before.files.locked = [] →
      (previewIn config before root node target).canExecute = true →
      (execute config before root node target).1.success = true := by
  intro h
  have hPlace : ∃ place, generatedInventory.hierarchy.place? 1 = some place ∧
      place.value.readOnly = false := ⟨_, rfl, rfl⟩
  obtain ⟨place, hPlace, hWritable⟩ := hPlace
  have hSuccess :=
    h oneFileEach generatedInventory 0 1 .member place hPlace hWritable rfl (by decide +kernel)
  have hFailed : (execute oneFileEach generatedInventory 0 1 .member).1.success = false := by
    decide +kernel
  rw [hFailed] at hSuccess
  cases hSuccess

/-! ## Executions that go on -/

theorem state_of_success (h : (execute config before root node target).1.success = true) :
    (execute config before root node target).2 =
      ⟨{ before.hierarchy.withKind node target with
          persistCount := (before.hierarchy.withKind node target).persistCount + 1 },
        before.files.without (previewIn config before root node target).filesToDelete⟩ := by
  obtain ⟨_, hOutcome⟩ := outcome_of_success h
  generalize (execute config before root node target).2 = after at hOutcome ⊢
  cases hOutcome with
  | done written deletable =>
    obtain ⟨_, rfl⟩ := Hierarchy.setKind_eq_ok_iff.mp written
    rfl

variable {files : FileSet} {gone : List String}

theorem filesToDelete_plan_without :
    (plan config tree (files.without gone).contains candidate target).filesToDelete =
      (plan config tree files.contains candidate target).filesToDelete.filter
        fun path => !files.isAmong gone path := by
  have hContains : (files.without gone).contains =
      fun path => !files.isAmong gone path && files.contains path := by
    funext path
    rw [FileSet.contains_without, Bool.and_comm]
  simp only [plan, Report.sealed, hContains, List.filter_filter]

theorem canExecute_plan_without
    (h : (plan config tree files.contains candidate target).canExecute = true) :
    (plan config tree (files.without gone).contains candidate target).canExecute = true := by
  have hFree := canExecute_plan_iff.mp h
  refine canExecute_plan_iff.mpr fun path hOwn hLeft => ?_
  rw [FileSet.contains_without, Bool.and_eq_true] at hLeft
  rw [filesToDelete_plan_without, List.mem_filter]
  exact ⟨hFree path hOwn hLeft.1, hLeft.2⟩

/-- What is gone and what is then deleted are together what would have been deleted. -/
theorem isAmong_append_filter {paths : List String} (hGone : ∀ path ∈ gone, path ∈ paths)
    (path : String) :
    files.isAmong (gone ++ paths.filter fun path => !files.isAmong gone path) path =
      files.isAmong paths path := by
  rw [Bool.eq_iff_iff, FileSet.isAmong, FileSet.isAmong, List.any_eq_true, List.any_eq_true]
  constructor
  · rintro ⟨other, hIn, hSame⟩
    rcases List.mem_append.mp hIn with hIn | hIn
    · exact ⟨other, hGone other hIn, hSame⟩
    · exact ⟨other, (List.mem_filter.mp hIn).1, hSame⟩
  · rintro ⟨other, hIn, hSame⟩
    cases hAmong : files.isAmong gone other with
    | false =>
      have hLeft : other ∈ paths.filter fun path => !files.isAmong gone path :=
        List.mem_filter.mpr ⟨hIn, by rw [hAmong, Bool.not_false]⟩
      exact ⟨other, List.mem_append_right _ hLeft, hSame⟩
    | true =>
      rw [← FileSet.isAmong_congr hSame] at hAmong
      obtain ⟨deleted, hDeleted, hSpelled⟩ := List.any_eq_true.mp hAmong
      exact ⟨deleted, List.mem_append_left _ hDeleted, hSpelled⟩

/-- A conversion goes on from any part of its deletions. -/
theorem execute_without (hPlan : (previewIn config before root node target).canExecute = true)
    (hEditable : before.hierarchy.Editable node) (hUnlocked : before.files.locked = [])
    (hDistinct : before.files.Distinct (previewIn config before root node target).filesToDelete)
    (hGone : ∀ path ∈ gone, path ∈ (previewIn config before root node target).filesToDelete) :
    let rest : MemoryWorkspace := { before with files := before.files.without gone }
    (execute config rest root node target).1.success = true ∧
      (execute config rest root node target).2 = (execute config before root node target).2 := by
  intro rest
  obtain ⟨candidate, hAllowed⟩ := exists_allowed_of_previewIn hPlan
  have hBefore := previewIn_of_allowed hAllowed
  have hRest : previewIn config rest root node target =
      plan config (.build before.hierarchy root) (before.files.without gone).contains candidate
        target := previewIn_of_allowed hAllowed
  have hLeft : (previewIn config rest root node target).filesToDelete =
      (previewIn config before root node target).filesToDelete.filter
        fun path => !before.files.isAmong gone path := by
    rw [hRest, hBefore, filesToDelete_plan_without]
  have hPlanRest : (previewIn config rest root node target).canExecute = true := by
    rw [hRest]
    rw [hBefore] at hPlan
    exact canExecute_plan_without hPlan
  have hDistinctRest :
      rest.files.Distinct (previewIn config rest root node target).filesToDelete := by
    rw [hLeft]
    exact List.Pairwise.filter _ hDistinct
  have hSuccess := (success_iff_distinct hPlan hEditable hUnlocked).mpr hDistinct
  have hSuccessRest : (execute config rest root node target).1.success = true :=
    (success_iff_distinct hPlanRest hEditable hUnlocked).mpr hDistinctRest
  refine ⟨hSuccessRest, ?_⟩
  have hFiles : rest.files.without (previewIn config rest root node target).filesToDelete =
      before.files.without (previewIn config before root node target).filesToDelete := by
    rw [before.files.without_without, hLeft]
    exact before.files.without_congr (isAmong_append_filter hGone)
  rw [state_of_success hSuccessRest, state_of_success hSuccess, hFiles]

/-- A plan asks which files exist, not which are locked. -/
theorem previewIn_unlockAll (config : Config) (before : MemoryWorkspace) (root node : NodeId)
    (target : Kind) :
    previewIn config before.unlockAll root node target =
      previewIn config before root node target := by
  rw [MemoryWorkspace.unlockAll, FileSet.unlockAll_eq]
  rfl

/-- When the kind is written last and the type has two files, only a lock stops the execution of an
executable conversion.  Without the locks a second execution then ends where the first would have. -/
theorem execute_retry (config : Config) (before : MemoryWorkspace) (root node : NodeId)
    (target : Kind) {place : Place Node} (hOrder : config.kindCommit = .afterDeletions)
    (hPlace : before.hierarchy.place? node = some place)
    (hWritable : place.value.readOnly = false)
    (hApart : ∀ pair, ¬SharesFile config before root node pair)
    (hPlan : (previewIn config before root node target).canExecute = true)
    (hFailed : (execute config before root node target).1.success = false) :
    let plan := previewIn config before root node target
    let failed := execute config before root node target
    let again := execute config failed.2.unlockAll root node target
    let undisturbed := execute config before.unlockAll root node target
    (∃ path ∈ plan.filesToDelete, before.files.isLocked path = true ∧
      failed.1.errorMessage = some (Error.delete path .locked).message) ∧
    again.1.success = true ∧ undisturbed.1.success = true ∧
    again.2.hierarchy.document = undisturbed.2.hierarchy.document ∧
    again.2.hierarchy.persistCount = undisturbed.2.hierarchy.persistCount ∧
    again.2.files = undisturbed.2.files := by
  intro plan failed again undisturbed
  have hEditable := editable_of_canExecute hPlan hPlace hWritable
  have hPaths := contains_of_mem_filesToDelete hPlan
  have hDistinct : before.files.Distinct plan.filesToDelete :=
    (distinct_filesToDelete_previewIn_iff hPlan).mpr fun pair hShared =>
      absurd hShared (hApart pair)
  obtain ⟨deleted, path, fault, hStuck, hMessage, hLeft⟩ :=
    exists_stuck_of_failure hPlan hEditable hFailed
  obtain ⟨hLocked, rfl⟩ := hStuck.locked_of_distinct hPaths hDistinct
  refine ⟨⟨path, hStuck.mem, hLocked, hMessage⟩, ?_⟩
  have hDeleted : ∀ path ∈ deleted, path ∈ plan.filesToDelete := by
    obtain ⟨later, hSplit⟩ := hStuck.split
    intro other hOther
    rw [hSplit]
    exact List.mem_append_left _ hOther
  have hUnlocked : before.unlockAll.files.locked = [] := before.files.locked_unlockAll
  have hSamePlan : previewIn config before.unlockAll root node target = plan :=
    previewIn_unlockAll config before root node target
  have hDistinct := FileSet.distinct_unlockAll_iff.mpr hDistinct
  rw [← hSamePlan] at hDeleted hDistinct
  have hPlanUnlocked : (previewIn config before.unlockAll root node target).canExecute = true := by
    rw [hSamePlan]
    exact hPlan
  have hUndisturbed : undisturbed.1.success = true :=
    (success_iff_distinct hPlanUnlocked hEditable hUnlocked).mpr hDistinct
  have hRest : again =
      execute config { before.unlockAll with files := before.unlockAll.files.without deleted }
        root node target := by
    dsimp only [again, failed]
    rw [hLeft hOrder, MemoryWorkspace.unlockAll, FileSet.unlockAll_without]
    rfl
  obtain ⟨hAgain, hSame⟩ := execute_without hPlanUnlocked hEditable hUnlocked hDistinct hDeleted
  rw [← hRest] at hAgain hSame
  exact ⟨hAgain, hUndisturbed, by rw [hSame], by rw [hSame], by rw [hSame]⟩

/-- The primary file of an element is the companion file of the component, and the other way. -/
def swappedFiles : Config where
  kindCommit := .afterDeletions
  pathTemplates :=
    { element := ⟨"\x7bname\x7d.cs", "\x7bname\x7d.g.cs"⟩
      component := ⟨"\x7bname\x7d.g.cs", "\x7bname\x7d.cs"⟩ }

def lockedBag : MemoryWorkspace where
  hierarchy := ⟨⟨{ label := "Hud" },
    .cons { label := "Bag", binding := some ⟨.element, "Bag", "BagView", none⟩ } .nil .nil⟩, 0⟩
  files := { paths := ["Bag.cs", "Bag.g.cs"], locked := ["Bag.g.cs"] }

theorem execute_retry_lockedBag :
    let plan := previewIn swappedFiles lockedBag 0 1 .component
    let failed := execute swappedFiles lockedBag 0 1 .component
    let again := execute swappedFiles failed.2.unlockAll 0 1 .component
    let undisturbed := execute swappedFiles lockedBag.unlockAll 0 1 .component
    plan.canExecute = true ∧ failed.1.success = false ∧ failed.2.files.paths = ["Bag.g.cs"] ∧
      again.1.success = true ∧ undisturbed.1.success = true ∧
      again.2.hierarchy.document = undisturbed.2.hierarchy.document ∧
      again.2.hierarchy.persistCount = undisturbed.2.hierarchy.persistCount ∧
      again.2.files = undisturbed.2.files := by
  have hPlace : ∃ place, lockedBag.hierarchy.place? 1 = some place ∧
      place.value.readOnly = false := ⟨_, rfl, rfl⟩
  have hPlan : (previewIn swappedFiles lockedBag 0 1 .component).canExecute = true := by
    decide +kernel
  have hFailed : (execute swappedFiles lockedBag 0 1 .component).1.success = false := by
    decide +kernel
  have hLeft : (execute swappedFiles lockedBag 0 1 .component).2.files.paths = ["Bag.g.cs"] := by
    decide +kernel
  have hFiles : Artifact.ofKind? swappedFiles "Hud" .element "Bag" =
      some ⟨"Bag.cs", "Bag.g.cs"⟩ := by decide +kernel
  have hApart : ∀ pair, ¬SharesFile swappedFiles lockedBag 0 1 pair := by
    rintro pair ⟨⟨binding, hBinding, hPair⟩, hSame⟩
    obtain rfl := Option.some.inj hBinding
    obtain rfl := Option.some.inj (hFiles.symm.trans hPair)
    exact absurd hSame (by decide)
  obtain ⟨place, hPlace, hWritable⟩ := hPlace
  obtain ⟨_, hRetried⟩ := execute_retry swappedFiles lockedBag 0 1 .component rfl hPlace hWritable
    hApart hPlan hFailed
  exact ⟨hPlan, hFailed, hLeft, hRetried⟩

end Conversion

end TemplateBinding
