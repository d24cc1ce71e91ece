import TemplateBinding.Declarations
import TemplateBinding.Proofs.Execution
import TemplateBinding.Proofs.Planning

/-!
# Runs of conversions

Conversions are executed one after the other, while files appear, vanish or are locked and nodes
become editable or not in between.  A template whose tree was free of errors stays so, also after
executions that stopped half way; so its declarations are never refused.
-/
namespace TemplateBinding.Conversion
set_option autoImplicit false

open BindingTree (ErrorFree)

inductive Event where
  | convert (node : NodeId) (target : Kind)
  | setReadOnly (node : NodeId) (readOnly : Bool)
  /-- The files and their locks become what they may. -/
  | replaceFiles (files : FileSet)
  deriving Repr, DecidableEq

variable {config : Config} {root : NodeId} {workspace : MemoryWorkspace}

def handle (config : Config) (root : NodeId) (workspace : MemoryWorkspace) :
    Event → MemoryWorkspace
  | .convert node target => (execute config workspace root node target).2
  | .setReadOnly node readOnly =>
    match workspace.hierarchy.setReadOnly node readOnly with
    | .ok hierarchy => { workspace with hierarchy }
    | .error _ => workspace
  | .replaceFiles files => { workspace with files }

def run (config : Config) (root : NodeId) (workspace : MemoryWorkspace) (events : List Event) :
    MemoryWorkspace := events.foldl (handle config root) workspace

theorem errorFree_execute {σ : Type} [Workspace σ] [LawfulWorkspace σ] (state : σ)
    (node : NodeId) (target : Kind)
    (h : ErrorFree config (.build (Workspace.hierarchy state) root)) :
    ErrorFree config
      (.build (Workspace.hierarchy (execute config state root node target).2) root) := by
  rcases document_execute config state root node target with hDocument | ⟨hExecutable, hDocument⟩
  · rwa [BindingTree.build_congr hDocument]
  · obtain ⟨candidate, hAllowed⟩ := exists_allowed_of_canExecute hExecutable
    rw [BindingTree.build_congr hDocument,
      BindingTree.build_withKind hAllowed.found hAllowed.kind?_ne_leaf hAllowed.targetConvertible]
    exact hAllowed.errorFree_withKind h

theorem errorFree_handle (event : Event) (h : ErrorFree config (.build workspace.hierarchy root)) :
    ErrorFree config (.build (handle config root workspace event).hierarchy root) := by
  cases event with
  | convert node target =>
    have hExecute := errorFree_execute workspace node target h
    exact hExecute
  | setReadOnly node readOnly =>
    rw [handle, Hierarchy.setReadOnly]
    cases workspace.hierarchy.place? node with
    | none => exact h
    | some place => rwa [BindingTree.build_modify_readOnly]
  | replaceFiles files => exact h

/-- Freedom from errors is an invariant of every run, and it keeps the declarations available. -/
theorem errorFree_run (config : Config) (root : NodeId) (workspace : MemoryWorkspace)
    (events : List Event) (h : ErrorFree config (.build workspace.hierarchy root)) :
    let tree := BindingTree.build (run config root workspace events).hierarchy root
    ErrorFree config tree ∧
      tree.declare config (tree.validate config).1 = .ok (tree.declarations config) := by
  have hRun : ErrorFree config (.build (run config root workspace events).hierarchy root) := by
    induction events generalizing workspace with
    | nil => exact h
    | cons event events ih => exact ih _ (errorFree_handle event h)
  refine ⟨hRun, ?_⟩
  rw [BindingTree.declare, if_neg (by rw [BindingTree.errorFree_iff_countP_eq_zero.mp hRun]; decide)]

def lockedInventory : MemoryWorkspace where
  hierarchy := ⟨⟨{ label := "Hud" },
    .cons { label := "Inventory", binding := some ⟨.element, "Inventory", "InventoryView", none⟩ }
      (.cons { label := "Slot", binding := some ⟨.member, "Slot", "Image", none⟩ } .nil .nil)
      (.cons { label := "Score", binding := some ⟨.member, "Score", "Text", none⟩ } .nil .nil)⟩, 0⟩
  files :=
    { paths := ["Assets/Scripts/UI/Hud/Inventory.cs", "Assets/Scripts/UI/Hud/Inventory.Designer.cs"]
      locked := ["Assets/Scripts/UI/Hud/Inventory.Designer.cs"]
      identity := .text }

/-- The first conversion fails at the locked file and keeps the new kind. -/
theorem errorFree_run_lockedInventory :
    let events : List Event := [.convert 1 .component, .setReadOnly 3 true, .convert 3 .element,
      .replaceFiles {}, .setReadOnly 3 false, .convert 3 .component]
    let report := (execute {} lockedInventory 0 1 .component).1
    let tree := BindingTree.build (run {} 0 lockedInventory events).hierarchy 0
    ErrorFree {} (.build lockedInventory.hierarchy 0) ∧
      (report.canExecute = true ∧ report.success = false) ∧
        (tree.slots.values.map fun slot => slot.kind?) =
          [none, some .component, some .member, some .component] ∧
        ErrorFree {} tree ∧
          tree.declare {} (tree.validate {}).1 = .ok (tree.declarations {}) := by
  intro events report tree
  have hFree : ErrorFree {} (.build lockedInventory.hierarchy 0) := by decide +kernel
  refine ⟨hFree, by decide +kernel, by decide +kernel, ?_⟩
  exact errorFree_run {} 0 lockedInventory events hFree

end TemplateBinding.Conversion
