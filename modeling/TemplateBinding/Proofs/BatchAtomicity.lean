import TemplateBinding.Endpoint
import TemplateBinding.Proofs.BatchAccounting
import TemplateBinding.Proofs.Reopening

/-!
# Batches on a template file

A batch on a template file either leaves the disk as it is or writes the file once, as its last
step.  It is written only after all checks have passed and some node was annotated.  Then it holds
the opened document with the bindings of the annotated nodes and no other change.  Only a device
that runs full during that write damages the file, which then holds the beginning of the new text.
-/
namespace TemplateBinding
set_option autoImplicit false

/-! ## What a batch adds to a document -/

namespace Batch

variable {config : Config} {options : Options} {hierarchy : Hierarchy} {nodes : List NodeId}

theorem document_modifyAll {change : Record → Record}
    (h : ∀ record, (change record).unbound = record.unbound) (hierarchy : Hierarchy)
    (addresses : List NodeId) :
    (hierarchy.modifyAll addresses change).document =
      hierarchy.document.mapPositions fun node record =>
        { record with binding := (hierarchy.modifyAll addresses change).binding node } := by
  have hEdited : (hierarchy.modifyAll addresses change).document =
      hierarchy.document.mapPositions fun node record =>
        if node ∈ addresses then change record else record := rfl
  refine hEdited.trans (Tree.mapPositions_congr fun node record hRecord => ?_)
  rw [Hierarchy.getElem?_document_values] at hRecord
  obtain ⟨place, hPlace, rfl⟩ := Option.map_eq_some_iff.mp hRecord
  rw [binding_modifyAll, hPlace, Option.bind_some]
  split
  · have hUnbound := h place.value.toRecord
    rw [Record.unbound, Record.unbound, Record.mk.injEq] at hUnbound
    obtain ⟨hLabel, hCapabilities, _, hReadOnly⟩ := hUnbound
    rw [← hLabel, ← hCapabilities, ← hReadOnly]
  · rfl

/-- The nodes of the items had no bindings and have got one each, named by the detail of the item.
Nothing else has changed. -/
structure Gains (items : List Item) (before after : Document) : Prop where
  once : (items.map Item.node).Nodup
  unbound : ∀ item ∈ items, ∃ record,
    before.values[item.node]? = some record ∧ record.binding = none
  bound : ∃ bindings : NodeId → Binding,
    (∀ item ∈ items, (bindings item.node).name = item.detail) ∧
      after = before.mapPositions fun node record =>
        if node ∈ items.map Item.node then { record with binding := some (bindings node) }
        else record

theorem gains_annotate (config : Config) (options : Options) (hierarchy : Hierarchy)
    (nodes : List NodeId) :
    let run := annotate config options hierarchy nodes
    Gains run.1.annotated hierarchy.document run.2.document := by
  intro run
  refine ⟨nodup_nodes_annotated config options hierarchy _, fun item hItem => ?_,
    fun node => (run.2.binding node).getD .leaf, fun item hItem => ?_, ?_⟩
  · obtain ⟨node, _, hAnnotated⟩ := mem_annotated_iff.mp hItem
    obtain ⟨place, hPlace, hVerdict, _⟩ := exists_place_of_annotated? hAnnotated
    rw [node_of_itemFor? hAnnotated, Hierarchy.getElem?_document_values, hPlace]
    exact ⟨_, rfl, (granted_of_annotated hVerdict).1⟩
  · obtain ⟨_, binding, _, hName, hAfter⟩ := granted_of_mem_annotated hItem
    rw [← hName]
    exact congrArg (fun binding => (Option.getD binding Binding.leaf).name) hAfter
  · have hDocument : run.2.document = hierarchy.document.mapPositions fun node record =>
        { record with binding := run.2.binding node } := by
      rw [hierarchy_annotate]
      exact document_modifyAll (unbound_granted config options) hierarchy _
    refine hDocument.trans (Tree.mapPositions_congr fun node record hRecord => ?_)
    rw [Hierarchy.getElem?_document_values] at hRecord
    obtain ⟨place, hPlace, rfl⟩ := Option.map_eq_some_iff.mp hRecord
    split
    · rename_i hNode
      obtain ⟨item, hItem, rfl⟩ := List.mem_map.mp hNode
      obtain ⟨_, binding, _, _, hAfter⟩ := granted_of_mem_annotated hItem
      have hBinding : run.2.binding item.node = some binding := hAfter
      simp only [hBinding, Option.getD_some]
    · rename_i hNode
      have hSame : run.2.binding node = hierarchy.binding node :=
        binding_of_not_annotated fun item hItem hSame =>
          hNode (List.mem_map.mpr ⟨item, hItem, hSame⟩)
      have hKept : run.2.binding node = place.value.binding := by
        rw [hSame, Hierarchy.binding_of_place? hPlace]
      exact congrArg (fun binding => { place.value.toRecord with binding }) hKept

/-- A document that has gained a binding is another document. -/
theorem Gains.ne {items : List Item} {before after : Document} (h : Gains items before after)
    (hItems : items ≠ []) : after ≠ before := by
  obtain ⟨item, hItem⟩ := List.exists_mem_of_ne_nil items hItems
  obtain ⟨record, hRecord, hNone⟩ := h.unbound item hItem
  obtain ⟨bindings, _, rfl⟩ := h.bound
  intro hSame
  have hValues := congrArg (fun document => (Tree.values document)[item.node]?) hSame
  simp only [Tree.values_mapPositions, List.getElem?_mapIdx, hRecord, Option.map_some,
    if_pos (List.mem_map_of_mem (f := Item.node) hItem)] at hValues
  rw [← Option.some.inj hValues] at hNone
  cases hNone

end Batch

theorem Sha256.separates_pair {first second : String} (h : hashText first ≠ hashText second) :
    Separates [first, second] := by
  simp only [Separates, List.mem_cons, List.not_mem_nil, or_false]
  rintro _ (rfl | rfl) _ (rfl | rfl) hHash
  · rfl
  · exact absurd hHash h
  · exact absurd hHash.symm h
  · rfl

namespace Disk

variable {disk : Disk} {path : String} {names : List String}

theorem locate_of_read {text : String} (h : disk.read path = .ok text) :
    ∃ names, disk.locate path = .ok (.file names (.text text)) :=
  stored?_eq_some_iff.mp (read_eq_ok_iff.mp h)

/-- What a write does besides the file that it is for. -/
structure Spares (disk after : Disk) (names : List String) : Prop where
  home : after.home = disk.home
  directories : after.directories = disk.directories
  others : ∀ other, other ≠ names → after.contentAt? other = disk.contentAt? other

theorem spares_write {old : Content} (h : disk.locate path = .ok (.file names old))
    (content : Content) : disk.Spares (disk.write path content).2 names := by
  have hPut {here : List String} (hLeads : disk.LeadsTo path here) (stored : Content) :
      disk.Spares (disk.put here stored) names := by
    obtain ⟨found, hLocate, hPlace, -⟩ := hLeads
    rw [h] at hLocate
    obtain rfl := Except.ok.inj hLocate
    obtain rfl : names = here := by
      rcases hPlace with ⟨_, hFile⟩ | hMissing
      · exact (Found.file.inj hFile).1
      · cases hMissing
    exact ⟨rfl, rfl, fun other hOther => by rw [contentAt?_put, if_neg hOther]⟩
  have hWrites := writes_write disk path content
  generalize disk.write path content = answer at hWrites ⊢
  cases hWrites with
  | refused => exact ⟨rfl, rfl, fun _ _ => rfl⟩
  | done leads | cut leads => exact hPut leads _

end Disk

namespace Endpoint

/-! ## Checks -/

theorem bind_eq_ok_iff {α β ε : Type} {result : Except ε α} {next : α → Except ε β} {value : β} :
    (result >>= next) = .ok value ↔ ∃ found, result = .ok found ∧ next found = .ok value := by
  cases result with
  | error failure => simp [Bind.bind, Except.bind]
  | ok found => simp [Bind.bind, Except.bind]

theorem mapM_eq_ok_iff {α β ε : Type} {f : α → Except ε β} {inputs : List α} {outputs : List β} :
    inputs.mapM f = .ok outputs ↔
      List.Forall₂ (fun input output => f input = .ok output) inputs outputs := by
  induction inputs generalizing outputs with
  | nil =>
    rw [List.mapM_nil, List.forall₂_nil_left_iff]
    exact ⟨fun h => (Except.ok.inj h).symm, fun h => congrArg Except.ok h.symm⟩
  | cons input inputs ih =>
    simp only [List.mapM_cons, bind_eq_ok_iff, ih, List.forall₂_cons_left_iff]
    constructor
    · rintro ⟨first, hFirst, rest, hRest, hOutputs⟩
      exact ⟨first, rest, hFirst, hRest, (Except.ok.inj hOutputs).symm⟩
    · rintro ⟨first, rest, hFirst, hRest, rfl⟩
      exact ⟨first, hFirst, rest, hRest, rfl⟩

theorem mapError_eq_ok_iff {α ε ε' : Type} {f : ε → ε'} {result : Except ε α} {value : α} :
    result.mapError f = .ok value ↔ result = .ok value := by
  cases result with
  | error failure => simp [Except.mapError]
  | ok found => simp [Except.mapError]

theorem decodeWith_eq_ok_iff {α : Type} {decode : Nat → Json → Option α} {failure : Failure}
    {json : Json} {value : α} :
    decodeWith decode failure json = .ok value ↔ decode json.nesting json = some value := by
  rw [decodeWith]
  cases decode json.nesting json with
  | none => simp
  | some found => simp

section

variable {disk after : Disk} (file : TemplateFile) {persisted : TemplateFile}
  {done : Batch.Outcome × Hierarchy} {cause : Error}

theorem finishBatch_of_idle (h : done.1.annotated = []) (disk : Disk) :
    finishBatch disk file done = (.ok done.1, disk) :=
  if_pos (List.isEmpty_iff.mpr h)

theorem finishBatch_of_persist_error (h : done.1.annotated ≠ [])
    (hPersist : TemplateFile.persist { file with hierarchy := done.2 } disk TemplateFile.root =
      (.error cause, persisted, after)) :
    finishBatch disk file done = (.error (.cannotPersist cause), after) := by
  obtain ⟨outcome, hierarchy⟩ := done
  rw [finishBatch, if_neg (mt List.isEmpty_iff.mp h), hPersist]

theorem finishBatch_of_persist_ok (h : done.1.annotated ≠ [])
    (hPersist : TemplateFile.persist { file with hierarchy := done.2 } disk TemplateFile.root =
      (.ok (), persisted, after)) :
    finishBatch disk file done = (.ok done.1, after) := by
  obtain ⟨outcome, hierarchy⟩ := done
  rw [finishBatch, if_neg (mt List.isEmpty_iff.mp h), hPersist]

end

/-- What a batch has to work with. -/
structure PreparedBatch where
  config : Config
  options : Batch.Options
  opened : String
  document : Document
  nodes : List NodeId

namespace PreparedBatch

/-- All checks have passed, and this is what came of them. -/
structure Passes (disk : Disk) (path : String) (paths : List String) (options : Json)
    (config : Option Json) (batch : PreparedBatch) : Prop where
  config : configOf config = .ok batch.config
  options : Batch.Options.decode options.nesting options = some batch.options
  read : disk.read path = .ok batch.opened
  parse : Document.parse? batch.opened = some batch.document
  resolve : List.Forall₂ (fun path node => Hierarchy.resolve ⟨batch.document, 0⟩ path = .ok node)
    paths batch.nodes

def file (batch : PreparedBatch) (path : String) : TemplateFile := .fresh path batch.document

def run (batch : PreparedBatch) : Batch.Outcome × Hierarchy :=
  Batch.annotate batch.config batch.options ⟨batch.document, 0⟩ batch.nodes

/-- The document with the new bindings. -/
def changed (batch : PreparedBatch) : Document := batch.run.2.document

variable {disk : Disk} {path : String} {paths : List String} {options : Json}
  {config : Option Json} {batch : PreparedBatch}

theorem exists_passes_iff {prepared : Config × Batch.Options × TemplateFile × List NodeId} :
    prepareBatch disk path paths options config = .ok prepared ↔
      ∃ batch : PreparedBatch, batch.Passes disk path paths options config ∧
        prepared = (batch.config, batch.options, batch.file path, batch.nodes) := by
  simp only [prepareBatch, bind_eq_ok_iff, decodeWith_eq_ok_iff, openTemplate,
    mapError_eq_ok_iff, TemplateFile.openAt_eq_ok_iff, mapM_eq_ok_iff, locate]
  constructor
  · rintro ⟨config, hConfig, options, hOptions, _, ⟨opened, document, hRead, hParse, rfl⟩, nodes,
      hNodes, hPrepared⟩
    cases hPrepared
    exact ⟨⟨config, options, opened, document, nodes⟩,
      ⟨hConfig, hOptions, hRead, hParse, hNodes⟩, rfl⟩
  · rintro ⟨batch, hPasses, rfl⟩
    exact ⟨_, hPasses.config, _, hPasses.options, _, ⟨_, _, hPasses.read, hPasses.parse, rfl⟩, _,
      hPasses.resolve, rfl⟩

theorem Passes.unique (h : batch.Passes disk path paths options config) {other : PreparedBatch}
    (hOther : other.Passes disk path paths options config) : other = batch := by
  have hSame := (exists_passes_iff.mpr ⟨other, hOther, rfl⟩).symm.trans
    (exists_passes_iff.mpr ⟨batch, h, rfl⟩)
  have hOpened := hOther.read.symm.trans h.read
  obtain ⟨_, _, _, _, _⟩ := batch
  obtain ⟨_, _, _, _, _⟩ := other
  cases hSame
  cases hOpened
  rfl

theorem gains (batch : PreparedBatch) :
    Batch.Gains batch.run.1.annotated batch.document batch.changed :=
  Batch.gains_annotate batch.config batch.options ⟨batch.document, 0⟩ batch.nodes

theorem batchAnnotate_of_passes (h : batch.Passes disk path paths options config) :
    batchAnnotate disk path paths options config =
      finishBatch disk (batch.file path) batch.run := by
  rw [batchAnnotate, exists_passes_iff.mpr ⟨batch, h, rfl⟩]
  rfl

/-! ## The last step -/

/-- How a batch ends that has passed the checks. -/
inductive Ends (batch : PreparedBatch) (path : String) (disk : Disk) :
    Except Failure Batch.Outcome × Disk → Prop where
  | idle (annotated : batch.run.1.annotated = []) : Ends batch path disk (.ok batch.run.1, disk)
  | skipped (annotated : batch.run.1.annotated ≠ [])
      (hash : Sha256.hashText batch.changed.print = Sha256.hashText batch.document.print) :
      Ends batch path disk (.ok batch.run.1, disk)
  | failed {fault : FileFault} {after : Disk} (annotated : batch.run.1.annotated ≠ [])
      (hash : Sha256.hashText batch.changed.print ≠ Sha256.hashText batch.document.print)
      (write : disk.write path (.text batch.changed.print) = (.error fault, after)) :
      Ends batch path disk (.error (.cannotPersist (.persist path fault)), after)
  | written {after : Disk} (annotated : batch.run.1.annotated ≠ [])
      (write : disk.write path (.text batch.changed.print) = (.ok (), after)) :
      Ends batch path disk (.ok batch.run.1, after)

/-- The file with the new bindings, before it is persisted. -/
def annotatedFile (batch : PreparedBatch) (path : String) : TemplateFile :=
  ⟨path, batch.run.2, Sha256.hashText batch.document.print⟩

theorem ends_finishBatch (batch : PreparedBatch) (path : String) (disk : Disk) :
    Ends batch path disk (finishBatch disk (batch.file path) batch.run) := by
  by_cases hAnnotated : batch.run.1.annotated = []
  · rw [finishBatch_of_idle (batch.file path) hAnnotated disk]
    exact .idle hAnnotated
  have hKnown : (batch.annotatedFile path).hierarchy.documentAt? TemplateFile.root =
      some batch.changed := Hierarchy.documentAt?_zero batch.run.2
  by_cases hHash : Sha256.hashText batch.changed.print = (batch.annotatedFile path).persistedHash
  · have hPersist := TemplateFile.persist_of_same hKnown hHash disk
    rw [finishBatch_of_persist_ok (batch.file path) hAnnotated hPersist]
    exact .skipped hAnnotated hHash
  · cases hWrite : disk.write (batch.annotatedFile path).path (.text batch.changed.print) with
    | mk answer after =>
      cases answer with
      | error fault =>
        have hPersist := TemplateFile.persist_of_write_error hKnown hHash hWrite
        rw [finishBatch_of_persist_error (batch.file path) hAnnotated hPersist]
        exact .failed hAnnotated hHash hWrite
      | ok done =>
        have hPersist := TemplateFile.persist_of_write hKnown hHash hWrite
        rw [finishBatch_of_persist_ok (batch.file path) hAnnotated hPersist]
        exact .written hAnnotated hWrite

theorem Passes.ends (h : batch.Passes disk path paths options config) :
    Ends batch path disk (batchAnnotate disk path paths options config) := by
  rw [batchAnnotate_of_passes h]
  exact ends_finishBatch batch path disk

/-- Nothing is to be written, or it can be. -/
def Finishes (batch : PreparedBatch) (path : String) (disk : Disk) : Prop :=
  batch.run.1.annotated = [] ∨
    Sha256.hashText batch.changed.print = Sha256.hashText batch.document.print ∨
      (disk.write path (.text batch.changed.print)).1 = .ok ()

theorem Passes.answer_iff (h : batch.Passes disk path paths options config)
    {outcome : Batch.Outcome} :
    (batchAnnotate disk path paths options config).1 = .ok outcome ↔
      batch.Finishes path disk ∧ outcome = batch.run.1 := by
  have hEnds := h.ends
  generalize batchAnnotate disk path paths options config = answer at hEnds ⊢
  cases hEnds with
  | idle annotated =>
    rw [and_iff_right (.inl annotated)]
    exact ⟨fun h => (Except.ok.inj h).symm, fun h => congrArg _ h.symm⟩
  | skipped annotated hash =>
    rw [and_iff_right (.inr (.inl hash))]
    exact ⟨fun h => (Except.ok.inj h).symm, fun h => congrArg _ h.symm⟩
  | failed annotated hash write =>
    refine ⟨nofun, ?_⟩
    rintro ⟨hIdle | hHash | hWrite, -⟩
    · exact absurd hIdle annotated
    · exact absurd hHash hash
    · rw [write] at hWrite
      cases hWrite
  | written annotated write =>
    rw [and_iff_right (.inr (.inr (congrArg Prod.fst write)))]
    exact ⟨fun h => (Except.ok.inj h).symm, fun h => congrArg _ h.symm⟩

theorem Passes.read_changed (h : batch.Passes disk path paths options config)
    (hAnnotated : batch.run.1.annotated ≠ [])
    (hApart : Sha256.Separates [batch.document.print, batch.changed.print])
    (hOk : (batchAnnotate disk path paths options config).1 = .ok batch.run.1) :
    (batchAnnotate disk path paths options config).2.read path = .ok batch.changed.print := by
  have hEnds := h.ends
  generalize batchAnnotate disk path paths options config = answer at hEnds hOk ⊢
  cases hEnds with
  | idle annotated => exact absurd annotated hAnnotated
  | skipped annotated hash =>
    have hPrint := hApart batch.changed.print (by simp) batch.document.print (by simp) hash
    exact absurd (Document.print_injective hPrint) (batch.gains.ne annotated)
  | failed => cases hOk
  | written annotated write =>
    have hStored := Disk.stored?_of_write (congrArg Prod.fst write)
    rw [write] at hStored
    exact Disk.read_eq_ok_iff.mpr hStored

/-- What is left by a batch whose document could not be written. -/
def Damages (batch : PreparedBatch) (path : String) (failure : Failure) (after : Disk) : Prop :=
  batch.run.1.annotated ≠ [] ∧ failure = .cannotPersist (.persist path .noSpace) ∧
    ∃ rest, rest.IsBeginning (.text batch.changed.print) ∧ after.stored? path = some rest

theorem damages_of_write {after : Disk} (hAnnotated : batch.run.1.annotated ≠ [])
    (hWrite : disk.write path (.text batch.changed.print) = (.error .noSpace, after)) :
    batch.Damages path (.cannotPersist (.persist path .noSpace)) after := by
  have hLeft := Disk.exists_of_write_noSpace (congrArg Prod.fst hWrite)
  rw [hWrite] at hLeft
  exact ⟨hAnnotated, rfl, hLeft⟩

end PreparedBatch

section

variable {disk : Disk} {path : String} {paths : List String} {options : Json}
  {config : Option Json}

theorem batchAnnotate_of_no_passes
    (h : ∀ batch : PreparedBatch, ¬ batch.Passes disk path paths options config) :
    ∃ failure, batchAnnotate disk path paths options config = (.error failure, disk) := by
  rw [batchAnnotate]
  cases hPrepare : prepareBatch disk path paths options config with
  | error failure => exact ⟨failure, rfl⟩
  | ok prepared =>
    obtain ⟨batch, hPasses, _⟩ := PreparedBatch.exists_passes_iff.mp hPrepare
    exact absurd hPasses (h batch)

theorem answer_iff {outcome : Batch.Outcome} :
    (batchAnnotate disk path paths options config).1 = .ok outcome ↔
      ∃ batch : PreparedBatch, batch.Passes disk path paths options config ∧
        batch.Finishes path disk ∧ outcome = batch.run.1 := by
  by_cases hPasses : ∃ batch, PreparedBatch.Passes disk path paths options config batch
  · obtain ⟨batch, hPasses⟩ := hPasses
    rw [hPasses.answer_iff]
    refine ⟨fun h => ⟨batch, hPasses, h⟩, ?_⟩
    rintro ⟨other, hOther, h⟩
    exact hPasses.unique hOther ▸ h
  · obtain ⟨failure, hFailure⟩ := batchAnnotate_of_no_passes (not_exists.mp hPasses)
    rw [hFailure]
    exact ⟨nofun, fun ⟨batch, h, _⟩ => (hPasses ⟨batch, h⟩).elim⟩

theorem disk_of_failure {failure : Failure} {after : Disk}
    (h : batchAnnotate disk path paths options config = (.error failure, after)) :
    after = disk ∨ ∃ batch : PreparedBatch, batch.Passes disk path paths options config ∧
      batch.Damages path failure after := by
  by_cases hPasses : ∃ batch, PreparedBatch.Passes disk path paths options config batch
  · obtain ⟨batch, hPasses⟩ := hPasses
    have hEnds := hPasses.ends
    rw [h] at hEnds
    cases hEnds with
    | @failed fault _ annotated _ write =>
      by_cases hFault : fault = .noSpace
      · subst hFault
        exact .inr ⟨batch, hPasses, PreparedBatch.damages_of_write annotated write⟩
      · have hLeft := Disk.write_of_refused (congrArg Prod.fst write) hFault
        rw [write] at hLeft
        exact .inl hLeft
  · obtain ⟨_, hFailure⟩ := batchAnnotate_of_no_passes (not_exists.mp hPasses)
    exact .inl (congrArg Prod.snd (h.symm.trans hFailure))

theorem disk_of_idle {outcome : Batch.Outcome} {after : Disk}
    (h : batchAnnotate disk path paths options config = (.ok outcome, after))
    (hIdle : outcome.annotated = []) : after = disk := by
  obtain ⟨batch, hPasses, -, rfl⟩ := answer_iff.mp (congrArg Prod.fst h)
  have hEnds := hPasses.ends
  rw [h] at hEnds
  generalize hRun : batch.run.1 = run at hEnds hIdle
  cases hEnds with
  | idle | skipped => rfl
  | written annotated => exact absurd hIdle annotated

/-- Nothing but the file is touched. -/
theorem spares_batchAnnotate {names : List String} {opened : Content}
    (hLocate : disk.locate path = .ok (.file names opened)) :
    disk.Spares (batchAnnotate disk path paths options config).2 names := by
  have hSame : disk.Spares disk names := ⟨rfl, rfl, fun _ _ => rfl⟩
  by_cases hPasses : ∃ batch, PreparedBatch.Passes disk path paths options config batch
  · obtain ⟨batch, hPasses⟩ := hPasses
    have hEnds := hPasses.ends
    have hWrite := Disk.spares_write hLocate (.text batch.changed.print)
    generalize batchAnnotate disk path paths options config = answer at hEnds ⊢
    cases hEnds with
    | idle | skipped => exact hSame
    | failed annotated hash write | written annotated write =>
      rw [write] at hWrite
      exact hWrite
  · obtain ⟨_, hFailure⟩ := batchAnnotate_of_no_passes (not_exists.mp hPasses)
    rw [hFailure]
    exact hSame

end

/-- What a batch does to the disk. -/
structure AtomicBatch (disk : Disk) (path : String) (paths : List String) (options : Json)
    (config : Option Json) : Prop where
  /-- There is an outcome just if all checks have passed, those of all paths included, and the file
  can be written if it has to be. -/
  answered : ∀ outcome, (batchAnnotate disk path paths options config).1 = .ok outcome ↔
    ∃ batch : PreparedBatch, batch.Passes disk path paths options config ∧
      batch.Finishes path disk ∧ outcome = batch.run.1
  /-- An error changes nothing, unless the device ran full while the file was written. -/
  failed : ∀ failure after,
    batchAnnotate disk path paths options config = (.error failure, after) →
    failure ≠ .cannotPersist (.persist path .noSpace) → after = disk
  /-- What a device that ran full keeps is the beginning of the changed document. -/
  cut : ∀ failure after, batchAnnotate disk path paths options config = (.error failure, after) →
    after ≠ disk → ∃ batch : PreparedBatch, batch.Passes disk path paths options config ∧
      batch.Damages path failure after
  idle : ∀ outcome after, batchAnnotate disk path paths options config = (.ok outcome, after) →
    outcome.annotated = [] → after = disk
  /-- Without a collision of hashes the file holds the changed document. -/
  written : ∀ outcome after, batchAnnotate disk path paths options config = (.ok outcome, after) →
    outcome.annotated ≠ [] →
    ∃ batch : PreparedBatch, batch.Passes disk path paths options config ∧
      Batch.Gains outcome.annotated batch.document batch.changed ∧
      (Sha256.Separates [batch.document.print, batch.changed.print] →
        after.read path = .ok batch.changed.print)
  /-- No other file is changed; without a file nothing is. -/
  spares : ∀ names content, disk.locate path = .ok (.file names content) →
    disk.Spares (batchAnnotate disk path paths options config).2 names
  fileless : (∀ names content, disk.locate path ≠ .ok (.file names content)) →
    (batchAnnotate disk path paths options config).2 = disk

open TemplateFile (draft draftDisk draftText fullDisk)

def leafOptions : Json := .object [
  ("recursive", .bool false), ("defaultKind", .string "Leaf"), ("autoSuggestName", .bool false)]

def leafBatch : PreparedBatch :=
  ⟨{}, ⟨false, some .leaf, false⟩, draftText, draft none, [0]⟩

theorem passes_draft (obstacles : List (List String × Obstacle)) :
    leafBatch.Passes (draftDisk draftText obstacles) "Hud.json" ["Hud"]
      leafOptions none := by
  obtain ⟨text, document, hText, hParse, hFile⟩ :=
    TemplateFile.openAt_eq_ok_iff.mp TemplateFile.openAt_draftDisk
  have hRead (obstacles : List (List String × Obstacle)) :
      (draftDisk draftText obstacles).read "Hud.json" =
        .ok draftText :=
    Disk.read_eq_ok_iff.mpr (TemplateFile.stored?_draftDisk _ obstacles)
  have hDocument := congrArg (fun file => file.hierarchy.document) hFile
  rw [hRead] at hText
  cases hText
  have hResolve : Hierarchy.resolve ⟨draft none, 0⟩ "Hud" = .ok 0 := by decide
  exact ⟨rfl, rfl, hRead obstacles, hParse.trans (congrArg some hDocument.symm),
    .cons hResolve .nil⟩

end Endpoint

end TemplateBinding
