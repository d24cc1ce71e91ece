import TemplateBinding.Proofs.ExecutionEffect

/-!
# Undoing a conversion

A successful conversion of a tree without structural findings can be taken back.  The old tree has
nothing that could count as introduced.  The files of the old kind are gone, and there are none of
the new kind, for they would have been in the way before.
-/
namespace TemplateBinding
set_option autoImplicit false

open BindingTree (Slot)

namespace BindingTree

variable {config : Config} {tree : BindingTree}

/-- No finding is about names in a scope or about elements in a component. -/
def WellStructured (config : Config) (tree : BindingTree) : Prop :=
  ∀ finding ∈ (tree.validate config).1,
    finding.ruleId ≠ Rule.nameConflict.id ∧ finding.ruleId ≠ Rule.elementUnderComponent.id

instance (config : Config) (tree : BindingTree) : Decidable (WellStructured config tree) :=
  inferInstanceAs (Decidable (∀ finding ∈ (tree.validate config).1,
    finding.ruleId ≠ Rule.nameConflict.id ∧ finding.ruleId ≠ Rule.elementUnderComponent.id))

theorem WellStructured.findings_eq_nil (h : WellStructured config tree) :
    tree.conflictFindings = [] ∧ tree.hierarchyFindings = [] := by
  have hFindings : (tree.validate config).1 =
      (tree.locatedFindings config).map Located.finding := findings_validate config tree
  rw [WellStructured, hFindings, List.forall_mem_map] at h
  simp only [locatedFindings, List.mem_append] at h
  constructor <;> refine List.eq_nil_iff_forall_not_mem.mpr fun located hIn => ?_
  · exact (h located (.inl (.inl (.inr hIn)))).1 (ruleId_of_mem_conflictFindings hIn)
  · exact (h located (.inl (.inr hIn))).2 (ruleId_of_mem_hierarchyFindings hIn)

end BindingTree

namespace Hierarchy

variable {hierarchy other : Hierarchy} {node : NodeId} {kind : Kind}

/-- The node has a binding whose kind may be set. -/
def Editable (hierarchy : Hierarchy) (node : NodeId) : Prop :=
  ∃ place, hierarchy.place? node = some place ∧ place.value.readOnly = false ∧
    place.value.binding.isSome

theorem place?_congr (h : other.document = hierarchy.document) (node : NodeId) :
    other.place? node = hierarchy.place? node := by
  rw [place?, place?, places, places, nodes, nodes, h]

theorem documentAt?_congr (h : other.document = hierarchy.document) (node : NodeId) :
    other.documentAt? node = hierarchy.documentAt? node := by
  rw [documentAt?, documentAt?, place?_congr h]

theorem Editable.withKind (h : hierarchy.Editable node)
    (hDocument : other.document = (hierarchy.withKind node kind).document) :
    other.Editable node := by
  obtain ⟨place, hPlace, hReadOnly, hBound⟩ := h
  have hAfter := place?_modify hierarchy node node (Record.withKind kind)
  rw [← Hierarchy.withKind, ← place?_congr hDocument, hPlace, Option.map_some] at hAfter
  refine ⟨_, hAfter, ?_, ?_⟩ <;>
    rw [Place.map, Node.editAt, if_pos (id_of_place? hPlace), Record.withKind]
  · exact hReadOnly
  · rwa [Option.isSome_map]

theorem Editable.isOk_setKind (h : hierarchy.Editable node) (kind : Kind) :
    (hierarchy.setKind node kind).isOk = true := by
  rw [setKind_eq_ok_iff.mpr ⟨h, rfl⟩]
  rfl

end Hierarchy

namespace Conversion

variable {config : Config} {hierarchy : Hierarchy} {root node : NodeId} {target : Kind}
  {candidate : Candidate} {tree : BindingTree} {fileExists : String → Bool}

/-! ## The way back is allowed -/

def Candidate.retype (candidate : Candidate) (target : Kind) : Candidate :=
  ⟨candidate.place.map (Slot.retype candidate.place.value.index target),
    { candidate.binding with kind := target }⟩

theorem newIssue?_of_wellStructured (before : BindingTree)
    (h : BindingTree.WellStructured config tree) : newIssue? before tree = none := by
  obtain ⟨hConflicts, hHierarchy⟩ := h.findings_eq_nil
  rw [newIssue?, hConflicts, hHierarchy]
  rfl

theorem Allowed.undo (h : Allowed config (.build hierarchy root) node target candidate)
    (hStructure : BindingTree.WellStructured config (.build hierarchy root)) :
    Allowed config (.build (hierarchy.withKind node target) root) node candidate.binding.kind
      (candidate.retype target) := by
  have hAfter := BindingTree.build_withKind h.found h.kind?_ne_leaf h.targetConvertible
  have hFound : (BindingTree.build (hierarchy.withKind node target) root).find? node =
      some (candidate.retype target).place := by
    rw [hAfter, BindingTree.find?_withKind, h.found]
    rfl
  have hBound : (candidate.retype target).place.value.binding =
      some { candidate.binding with kind := target } := by
    rw [Candidate.retype, Place.map, Slot.retype_of_eq rfl]
    exact congrArg (Option.map _) h.bound
  have hBack : (BindingTree.build (hierarchy.withKind node target) root).withKind
      (candidate.retype target).place.value.index candidate.binding.kind =
        BindingTree.build hierarchy root := by
    have hLeaf : (candidate.retype target).place.value.kind? ≠ some .leaf := by
      rw [Entry.kind?_of_binding hBound]
      exact fun hLeaf => h.targetConvertible (Option.some.inj hLeaf)
    rw [← BindingTree.build_withKind hFound hLeaf h.sourceConvertible,
      Hierarchy.withKind_withKind,
      Hierarchy.withKind_kind ((BindingTree.binding_of_find? h.found).trans h.bound)]
  exact
    { found := hFound
      bound := hBound
      changes := fun hSame => h.changes hSame.symm
      sourceConvertible := h.targetConvertible
      targetConvertible := h.sourceConvertible
      named := h.named
      free := h.free
      legal := h.legal
      noIssue := by rw [hBack]; exact newIssue?_of_wellStructured _ hStructure }

/-! ## No file is in the way -/

theorem mem_filesToDelete_plan {path : String} :
    path ∈ (plan config tree fileExists candidate target).filesToDelete ↔
      path ∈ ownPaths config tree.templateName candidate.binding.kind candidate.binding.name ∧
        fileExists path = true :=
  List.mem_filter

theorem canExecute_plan_iff :
    (plan config tree fileExists candidate target).canExecute = true ↔
      ∀ path ∈ ownPaths config tree.templateName target candidate.binding.name,
        fileExists path = true →
          path ∈ (plan config tree fileExists candidate target).filesToDelete := by
  simp only [plan, Option.isNone_none, Bool.and_true, Bool.not_eq_true',
    Option.isSome_eq_false_iff, Option.isNone_iff_eq_none, List.find?_eq_none, Report.sealed,
    Bool.and_eq_true, List.contains_eq_mem, Bool.not_eq_true', decide_eq_false_iff_not, not_and,
    not_not]

/-- What a conversion deletes and what it must not meet are all the files of both kinds. -/
theorem plan_undo {left : String → Bool} {other : BindingTree}
    (hName : other.templateName = tree.templateName)
    (h : (plan config tree fileExists candidate target).canExecute = true)
    (hLeft : ∀ path, left path = true → fileExists path = true ∧
      path ∉ (plan config tree fileExists candidate target).filesToDelete) :
    (plan config other left (candidate.retype target) candidate.binding.kind).canExecute = true ∧
      (plan config other left (candidate.retype target) candidate.binding.kind).filesToDelete =
        [] := by
  have hFree := canExecute_plan_iff.mp h
  constructor
  · refine canExecute_plan_iff.mpr fun path hOwn hExists => ?_
    rw [hName] at hOwn
    obtain ⟨hBefore, hKept⟩ := hLeft path hExists
    exact absurd (mem_filesToDelete_plan.mpr ⟨hOwn, hBefore⟩) hKept
  · refine List.eq_nil_iff_forall_not_mem.mpr fun path hIn => ?_
    obtain ⟨hOwn, hExists⟩ := mem_filesToDelete_plan.mp hIn
    rw [hName] at hOwn
    obtain ⟨hBefore, hKept⟩ := hLeft path hExists
    exact hKept (hFree path hOwn hBefore)

/-! ## The way back -/

variable {before : MemoryWorkspace}

theorem previewIn_of_allowed
    (h : Allowed config (.build before.hierarchy root) node target candidate) :
    previewIn config before root node target =
      plan config (.build before.hierarchy root) before.files.contains candidate target :=
  planIn_of_allowed h

/-- Every step of a successful execution was taken. -/
structure Done (node : NodeId) (target : Kind) (plan : Report) (before after : MemoryWorkspace) :
    Prop where
  canExecute : plan.canExecute = true
  editable : before.hierarchy.Editable node
  document : after.hierarchy.document = (before.hierarchy.withKind node target).document
  files : after.files = before.files.without plan.filesToDelete

theorem outcome_of_success (h : (execute config before root node target).1.success = true) :
    (previewIn config before root node target).canExecute = true ∧
      Outcome config.kindCommit before node target
        (previewIn config before root node target).filesToDelete
        (execute config before root node target).2 none := by
  have hPlan : (previewIn config before root node target).canExecute = true := by
    by_contra hStop
    rw [execute_of_not_canExecute (Bool.eq_false_iff.mpr hStop), success_previewIn] at h
    cases h
  obtain ⟨failure, hOutcome, hReport⟩ := outcome_execute hPlan
  rw [hReport] at h
  obtain rfl := Option.isNone_iff_eq_none.mp h
  exact ⟨hPlan, hOutcome⟩

theorem done_of_success (h : (execute config before root node target).1.success = true) :
    Done node target (previewIn config before root node target) before
      (execute config before root node target).2 := by
  obtain ⟨hPlan, hOutcome⟩ := outcome_of_success h
  generalize (execute config before root node target).2 = after at hOutcome ⊢
  cases hOutcome with
  | done written deletable =>
    obtain ⟨hEditable, rfl⟩ := Hierarchy.setKind_eq_ok_iff.mp written
    exact ⟨hPlan, hEditable, rfl, rfl⟩

theorem success_of_noDeletion (h : (previewIn config before root node target).canExecute = true)
    (hDelete : (previewIn config before root node target).filesToDelete = [])
    (hEditable : before.hierarchy.Editable node) :
    (execute config before root node target).1.success = true := by
  refine (effect_execute h).success_iff_steps.mpr ⟨?_, hEditable.isOk_setKind target⟩
  rw [hDelete]
  exact before.files.canDelete_nil

/-- After a successful conversion nothing speaks against the old kind. -/
theorem Done.preview_undo {after : MemoryWorkspace}
    (hAllowed : Allowed config (.build before.hierarchy root) node target candidate)
    (h : Done node target (previewIn config before root node target) before after)
    (hStructure : BindingTree.WellStructured config (.build before.hierarchy root)) :
    (previewIn config after root node candidate.binding.kind).canExecute = true ∧
      (previewIn config after root node candidate.binding.kind).filesToDelete = [] := by
  have hBuild := BindingTree.build_congr h.document root
  have hUndo := hAllowed.undo hStructure
  rw [← hBuild] at hUndo
  have hName : (BindingTree.build after.hierarchy root).templateName =
      (BindingTree.build before.hierarchy root).templateName := by
    rw [hBuild, BindingTree.build_withKind hAllowed.found hAllowed.kind?_ne_leaf
      hAllowed.targetConvertible, BindingTree.templateName_withKind]
  have hPlan := h.canExecute
  have hFiles := h.files
  rw [previewIn_of_allowed hAllowed] at hPlan hFiles
  rw [previewIn_of_allowed hUndo]
  refine plan_undo hName hPlan fun path hLeft => ?_
  rw [hFiles, FileSet.contains_without, Bool.and_eq_true, Bool.not_eq_true'] at hLeft
  refine ⟨hLeft.1, fun hIn => ?_⟩
  rw [FileSet.isAmong_of_mem hIn] at hLeft
  cases hLeft.2

/-- Converting a node back to its old kind works right after the conversion; it deletes nothing and
restores the document. -/
theorem execute_undo (config : Config) (before : MemoryWorkspace) (root node : NodeId)
    (target : Kind) {source : Kind}
    (hStructure : BindingTree.WellStructured config (.build before.hierarchy root))
    (hSource : (before.hierarchy.binding node).map (fun binding => binding.kind) = some source)
    (h : (execute config before root node target).1.success = true) :
    let after := (execute config before root node target).2
    let plan := previewIn config after root node source
    let back := execute config after root node source
    plan.canExecute = true ∧ back.1.canExecute = true ∧ back.1.success = true ∧
      back.1.filesToDelete = [] ∧ back.2.files = after.files ∧
        back.2.hierarchy.document = before.hierarchy.document ∧
          ∀ other, back.2.hierarchy.documentAt? other = before.hierarchy.documentAt? other := by
  intro after plan back
  have hDone : Done node target (previewIn config before root node target) before after :=
    done_of_success h
  obtain ⟨candidate, hAllowed⟩ := exists_allowed_of_canExecute hDone.canExecute
  have hBinding : before.hierarchy.binding node = some candidate.binding :=
    (BindingTree.binding_of_find? hAllowed.found).trans hAllowed.bound
  obtain rfl : candidate.binding.kind = source := by
    rw [hBinding] at hSource
    exact Option.some.inj hSource
  obtain ⟨hPlan, hDelete⟩ := hDone.preview_undo hAllowed hStructure
  have hEditable := hDone.editable.withKind hDone.document
  have hSuccess : back.1.success = true := success_of_noDeletion hPlan hDelete hEditable
  have hEffect : Effect config.kindCommit node candidate.binding.kind plan after back.1 back.2 :=
    effect_execute hPlan
  have hBack : Done node candidate.binding.kind plan after back.2 := done_of_success hSuccess
  have hDocument : back.2.hierarchy.document = before.hierarchy.document := by
    have hSame := congrArg Hierarchy.document
      ((before.hierarchy.withKind_withKind node target _).trans (Hierarchy.withKind_kind hBinding))
    rw [hBack.document, Hierarchy.withKind, Hierarchy.modify, hDone.document]
    exact hSame
  have hReport := hEffect.samePlan
  refine ⟨hPlan, ?_, hSuccess, ?_, ?_, hDocument, Hierarchy.documentAt?_congr hDocument⟩
  · exact (congrArg Report.canExecute hReport).trans hPlan
  · exact (congrArg Report.filesToDelete hReport).trans hDelete
  · rw [hBack.files, hDelete, FileSet.without_nil]

/-- An inventory with a file of its own, and a file that belongs to nothing. -/
def storedInventory : MemoryWorkspace where
  hierarchy := ⟨⟨{ label := "Hud" },
    .cons { label := "Inventory", binding := some ⟨.element, "Inventory", "InventoryView", none⟩ }
      (.cons { label := "Slot", binding := some ⟨.member, "Slot", "Image", none⟩ } .nil .nil) .nil⟩, 0⟩
  files := { paths := ["Assets/Scripts/UI/Hud/Inventory.cs", "Notes.txt"] }

theorem execute_undo_storedInventory :
    let after := (execute {} storedInventory 0 1 .member).2
    let back := execute {} after 0 1 .element
    BindingTree.WellStructured {} (.build storedInventory.hierarchy 0) ∧
      (execute {} storedInventory 0 1 .member).1.success = true ∧
      after.files.paths = ["Notes.txt"] ∧ back.1.success = true ∧ back.1.filesToDelete = [] ∧
        back.2.files = after.files ∧
          back.2.hierarchy.document = storedInventory.hierarchy.document := by
  have hStructure : BindingTree.WellStructured {} (.build storedInventory.hierarchy 0) := by
    decide +kernel
  have hSuccess : (execute {} storedInventory 0 1 .member).1.success = true := by decide +kernel
  have hFiles : (execute {} storedInventory 0 1 .member).2.files.paths = ["Notes.txt"] := by
    decide +kernel
  obtain ⟨_, _, hBack, hDelete, hSame, hDocument, _⟩ :=
    execute_undo {} storedInventory 0 1 .member hStructure rfl hSuccess
  exact ⟨hStructure, hSuccess, hFiles, hBack, hDelete, hSame, hDocument⟩

end Conversion

end TemplateBinding
