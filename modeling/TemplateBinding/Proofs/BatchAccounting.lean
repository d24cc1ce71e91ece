import TemplateBinding.Proofs.BatchRuns

/-!
# What a batch accounts for

A run is logged visit by visit, each visit with its verdict and its item.  The lists of an outcome
are read off this log, so no visit is lost and none is counted twice.  Bindings appear at the
annotated nodes and nowhere else, and nothing but bindings changes.
-/
namespace TemplateBinding
set_option autoImplicit false

namespace Record

/-- All that a record holds besides its binding. -/
def unbound (record : Record) : Record := { record with binding := none }

end Record

theorem Node.unbound_editIn {change : Record → Record}
    (h : ∀ record, (change record).unbound = record.unbound) (addresses : List NodeId)
    (node : Node) : (node.editIn addresses change).unbound = node.unbound := by
  rw [editIn]
  split
  · exact h node.toRecord
  · rfl

namespace Hierarchy

variable {hierarchy : Hierarchy} {node : NodeId} {place : Place Node} {change : Record → Record}

theorem binding_of_place? (h : hierarchy.place? node = some place) :
    hierarchy.binding node = place.value.binding := by
  rw [binding, h, Option.bind_some]

def isReadOnly (hierarchy : Hierarchy) (node : NodeId) : Bool :=
  (hierarchy.place? node).any fun place => place.value.readOnly

/-- Whatever is read of the two hierarchies is the same, except for the bindings. -/
structure SameButBindings (before after : Hierarchy) : Prop where
  label : after.label = before.label
  capabilities : after.capabilities = before.capabilities
  isReadOnly : after.isReadOnly = before.isReadOnly
  parent : after.parent = before.parent
  children : after.children = before.children
  persistCount : after.persistCount = before.persistCount

theorem sameButBindings_modifyAll (h : ∀ record, (change record).unbound = record.unbound)
    (hierarchy : Hierarchy) (addresses : List NodeId) :
    SameButBindings hierarchy (hierarchy.modifyAll addresses change) where
  label := by
    funext node
    rw [label, label, place?_modifyAll]
    cases hierarchy.place? node with
    | none => rfl
    | some place =>
      have hLabel := congrArg Record.label (Node.unbound_editIn h addresses place.value)
      exact hLabel
  capabilities := by
    funext node
    rw [capabilities, capabilities, place?_modifyAll]
    cases hierarchy.place? node with
    | none => rfl
    | some place =>
      have hCapabilities := congrArg Record.capabilities (Node.unbound_editIn h addresses place.value)
      exact hCapabilities
  isReadOnly := by
    funext node
    rw [isReadOnly, isReadOnly, place?_modifyAll]
    cases hierarchy.place? node with
    | none => rfl
    | some place =>
      have hReadOnly := congrArg Record.readOnly (Node.unbound_editIn h addresses place.value)
      exact hReadOnly
  parent := by
    funext node
    rw [parent, parent, place?_modifyAll]
    cases hierarchy.place? node with
    | none => rfl
    | some place =>
      simp only [Option.map_some, Option.bind_some, Place.map, List.head?_map, Option.map_map,
        Function.comp_def, Node.id_editIn]
  children := by
    funext node
    rw [children, children, place?_modifyAll]
    cases hierarchy.place? node with
    | none => rfl
    | some place =>
      simp only [Option.map_some, Option.elim_some, Place.map, Forest.roots_map, List.map_map,
        Function.comp_def, Node.id_editIn]
  persistCount := rfl

end Hierarchy

namespace Batch

variable {config : Config} {options : Options} {hierarchy : Hierarchy} {node : NodeId}
  {record : Record} {visits : List NodeId} {item : Item}

/-! ## Selections -/

theorem map_id_values_eq_flatMap (hRecursive : options.recursive = true) (above : List Node)
    (forest : Forest Node)
    (h : ∀ place ∈ forest.places above, hierarchy.place? place.value.id = some place) :
    forest.values.map Node.id = (forest.roots.map Node.id).flatMap (selection options hierarchy) := by
  induction forest with
  | nil => rfl
  | cons value below rest _ hRest =>
    have hHere : hierarchy.place? value.id = some ⟨above, value, below⟩ := h _ List.mem_cons_self
    have hOthers := hRest fun place hPlace =>
      h place (List.mem_cons_of_mem _ (List.mem_append_right _ hPlace))
    have hSelection : selection options hierarchy value.id =
        value.id :: below.values.map Node.id := by
      rw [selection, hRecursive, hHere]
      rfl
    rw [Forest.values, Forest.roots, List.map_cons, List.map_append, List.map_cons,
      List.flatMap_cons, hSelection, ← hOthers, List.cons_append]

/-- A node comes before what its children select, and those come in their order. -/
theorem selection_eq (options : Options) (hierarchy : Hierarchy) (node : NodeId) :
    selection options hierarchy node =
      if options.recursive then
        node :: (hierarchy.children node).flatMap (selection options hierarchy)
      else [node] := by
  cases hRecursive : options.recursive with
  | false =>
    rw [selection, hRecursive]
    rfl
  | true =>
    rw [if_pos rfl, Hierarchy.children]
    cases hPlace : hierarchy.place? node with
    | none =>
      rw [selection, hRecursive, hPlace]
      rfl
    | some place =>
      have hBelow := map_id_values_eq_flatMap hRecursive (place.value :: place.above) place.below
        fun inner hInner => Hierarchy.place?_of_mem_places
          (Tree.mem_places_of_mem_below (Hierarchy.mem_places_of_place? hPlace) hInner)
      have hSelection : selection options hierarchy node =
          place.value.id :: place.below.values.map Node.id := by
        rw [selection, hRecursive, hPlace]
        rfl
      rw [hSelection, Hierarchy.id_of_place? hPlace, hBelow]
      rfl

/-! ## Records that get a binding -/

theorem unbound_granted (config : Config) (options : Options) (record : Record) :
    (granted config options record).unbound = record.unbound := by
  rcases granted_cases config options 0 record with ⟨_, hSame⟩ | ⟨binding, hGranted, _⟩
  · rw [hSame]
  · rw [hGranted]
    rfl

theorem granted_of_binding {existing : Binding} (h : record.binding = some existing) :
    granted config options record = record := by
  rw [granted, h]

/-- Only a record without a binding is annotated, and it gets the binding meant for it. -/
theorem granted_of_annotated (h : (judge config options node record).1 = .annotated) :
    record.binding = none ∧ ∃ binding,
      bindingFor? config options record.label record.capabilities = some binding ∧
        (judge config options node record).2 = binding.name ∧
          (granted config options record).binding = some binding := by
  rw [judge] at h ⊢
  rw [granted]
  cases hExisting : record.binding with
  | some existing =>
    rw [hExisting] at h
    cases h
  | none =>
    rw [hExisting] at h
    cases hGiven : bindingFor? config options record.label record.capabilities with
    | none =>
      simp only [hGiven] at h
      cases h
    | some binding =>
      simp only [hGiven] at h
      cases hReadOnly : record.readOnly with
      | true =>
        rw [hReadOnly] at h
        cases h
      | false => exact ⟨rfl, binding, rfl, rfl, rfl⟩

/-! ## Bindings after a run -/

theorem binding_modifyAll (hierarchy : Hierarchy) (addresses : List NodeId)
    (change : Record → Record) (node : NodeId) :
    (hierarchy.modifyAll addresses change).binding node = (hierarchy.place? node).bind fun place =>
      if node ∈ addresses then (change place.value.toRecord).binding else place.value.binding := by
  rw [Hierarchy.binding, Hierarchy.place?_modifyAll]
  cases hPlace : hierarchy.place? node with
  | none => rfl
  | some place =>
    rw [Option.map_some, Option.bind_some, Option.bind_some, Place.map, Node.editIn,
      Hierarchy.id_of_place? hPlace]
    split <;> rfl

theorem binding_modifyAll_of_binding {existing : Binding} (addresses : List NodeId)
    (h : hierarchy.binding node = some existing) :
    (hierarchy.modifyAll addresses (granted config options)).binding node = some existing := by
  rw [Hierarchy.binding, Option.bind_eq_some_iff] at h
  obtain ⟨place, hPlace, hExisting⟩ := h
  rw [binding_modifyAll, hPlace, Option.bind_some, granted_of_binding hExisting, ite_id, hExisting]

theorem exists_place_of_annotated?
    (h : itemFor? config options .annotated hierarchy node = some item) :
    ∃ place, hierarchy.place? node = some place ∧
      (judge config options node place.value.toRecord).1 = .annotated ∧
        item.detail = (judge config options node place.value.toRecord).2 := by
  obtain ⟨value, hValue, rfl⟩ := mem_nodes_of_annotated? h
  obtain ⟨place, hPlace, rfl⟩ := Hierarchy.exists_place?_of_mem_nodes hValue
  rw [itemFor?] at h
  split at h
  · rename_i hVerdict
    cases h
    rw [verdictAt, hPlace] at hVerdict
    refine ⟨place, hPlace, hVerdict, ?_⟩
    rw [itemAt, verdictAt, hPlace]
  · cases h

theorem mem_annotated_iff :
    item ∈ (visitAll config options visits ({}, hierarchy)).1.annotated ↔
      ∃ node ∈ visits, itemFor? config options .annotated hierarchy node = some item := by
  rw [mem_annotated_visitAll]
  exact or_iff_right List.not_mem_nil

/-- An annotated node had no binding, and it has the one meant for it afterwards. -/
theorem granted_of_mem_annotated
    (h : item ∈ (visitAll config options visits ({}, hierarchy)).1.annotated) :
    hierarchy.binding item.node = none ∧ ∃ binding,
      bindingFor? config options (hierarchy.label item.node) (hierarchy.capabilities item.node) =
          some binding ∧
        binding.name = item.detail ∧
        (visitAll config options visits ({}, hierarchy)).2.binding item.node = some binding := by
  obtain ⟨node, hVisited, hItem⟩ := mem_annotated_iff.mp h
  obtain ⟨place, hPlace, hVerdict, hDetail⟩ := exists_place_of_annotated? hItem
  obtain ⟨hNone, binding, hGiven, hName, hGranted⟩ := granted_of_annotated hVerdict
  rw [node_of_itemFor? hItem, Hierarchy.binding_of_place? hPlace, Hierarchy.label,
    Hierarchy.capabilities, hPlace]
  refine ⟨hNone, binding, hGiven, ?_, ?_⟩
  · rw [hDetail, hName]
  · rw [hierarchy_visitAll, binding_modifyAll, hPlace, Option.bind_some, if_pos hVisited, hGranted]

theorem binding_of_not_annotated
    (h : ∀ item ∈ (visitAll config options visits ({}, hierarchy)).1.annotated, item.node ≠ node) :
    (visitAll config options visits ({}, hierarchy)).2.binding node = hierarchy.binding node := by
  rw [hierarchy_visitAll, binding_modifyAll, Hierarchy.binding]
  cases hPlace : hierarchy.place? node with
  | none => rfl
  | some place =>
    rw [Option.bind_some, Option.bind_some]
    split
    · rename_i hVisited
      rcases granted_cases config options node place.value.toRecord with
        ⟨_, hSame⟩ | ⟨binding, _, hJudge⟩
      · rw [hSame]
      · -- The visit would have put the node into the list.
        have hItem : itemFor? config options .annotated hierarchy node =
            some (itemAt config options hierarchy node) := by
          rw [itemFor?, verdictAt, hPlace]
          exact if_pos (congrArg Prod.fst hJudge)
        exact absurd rfl (h _ (mem_annotated_iff.mpr ⟨node, hVisited, hItem⟩))
    · rfl

theorem nodup_nodes_annotated (config : Config) (options : Options) (hierarchy : Hierarchy)
    (visits : List NodeId) :
    ((visitAll config options visits ({}, hierarchy)).1.annotated.map Item.node).Nodup := by
  refine List.Nodup.map_on ?_ (recorded_start config options hierarchy).visitAll.nodup
  intro first hFirst second hSecond hNode
  obtain ⟨node, _, hFirst⟩ := mem_annotated_iff.mp hFirst
  obtain ⟨other, _, hSecond⟩ := mem_annotated_iff.mp hSecond
  rw [node_of_itemFor? hFirst, node_of_itemFor? hSecond] at hNode
  rw [hNode, hSecond] at hFirst
  exact (Option.some.inj hFirst).symm

/-! ## The log of a run -/

namespace Outcome

def items (outcome : Outcome) : Verdict → List Item
  | .annotated => outcome.annotated
  | .skipped => outcome.skipped
  | .failed => outcome.failed

theorem items_record (outcome : Outcome) (verdict other : Verdict) (item : Item) :
    (outcome.record verdict item).items other =
      outcome.items other ++ if verdict == other then [item] else [] := by
  cases verdict <;> cases other <;> simp [record, items]

end Outcome

/-- The visits of a run in their order, each with its verdict and the item it contributes. -/
def log (config : Config) (options : Options) : List NodeId → Hierarchy → List (Verdict × Item)
  | [], _ => []
  | node :: visits, hierarchy =>
    let (verdict, detail, after) := visit config options hierarchy node
    (verdict, ⟨node, hierarchy.pathOf node, detail⟩) :: log config options visits after

theorem log_cons (config : Config) (options : Options) (node : NodeId) (visits : List NodeId)
    (hierarchy : Hierarchy) :
    log config options (node :: visits) hierarchy =
      ((verdictAt config options hierarchy node).1, itemAt config options hierarchy node) ::
        log config options visits (hierarchy.modifyAll [node] (granted config options)) := by
  rw [log, visit_eq, Hierarchy.modify_eq_modifyAll]
  rfl

theorem map_node_log (config : Config) (options : Options) (visits : List NodeId)
    (hierarchy : Hierarchy) :
    (log config options visits hierarchy).map (fun entry => entry.2.node) = visits := by
  induction visits generalizing hierarchy with
  | nil => rfl
  | cons node visits ih => rw [log_cons, List.map_cons, ih, itemAt]

theorem items_visitAll (verdict : Verdict) (visits : List NodeId) (outcome : Outcome)
    (hierarchy : Hierarchy) :
    (visitAll config options visits (outcome, hierarchy)).1.items verdict =
      outcome.items verdict ++
        ((log config options visits hierarchy).filter fun entry => entry.1 == verdict).map
          Prod.snd := by
  induction visits generalizing outcome hierarchy with
  | nil => exact (List.append_nil _).symm
  | cons node visits ih =>
    rw [visitAll_cons, ih, Outcome.items_record, log_cons, List.filter_cons, List.append_assoc]
    cases (verdictAt config options hierarchy node).1 == verdict <;> rfl

/-- A visit is judged by what the visits before it have left. -/
theorem getElem?_log (earlier later : List NodeId) (node : NodeId) (hierarchy : Hierarchy) :
    (log config options (earlier ++ node :: later) hierarchy)[earlier.length]? =
      let moment := hierarchy.modifyAll earlier (granted config options)
      some ((verdictAt config options moment node).1, itemAt config options moment node) := by
  induction earlier generalizing hierarchy with
  | nil =>
    rw [List.nil_append, log_cons, List.length_nil, List.getElem?_cons_zero,
      Hierarchy.modifyAll_nil]
  | cons first earlier ih =>
    rw [List.cons_append, log_cons, List.length_cons, List.getElem?_cons_succ, ih,
      Hierarchy.modifyAll_modifyAll (granted_granted config options), List.singleton_append]

theorem verdictAt_of_binding {existing : Binding} (h : hierarchy.binding node = some existing) :
    verdictAt config options hierarchy node =
      (.skipped, "already annotated as " ++ existing.kind.name) := by
  rw [Hierarchy.binding, Option.bind_eq_some_iff] at h
  obtain ⟨place, hPlace, hExisting⟩ := h
  rw [verdictAt, hPlace]
  simp only [judge, hExisting]

/-! ## Accounts -/

/-- What a run does to a hierarchy and what it says about it. -/
structure Accounts (config : Config) (options : Options) (before : Hierarchy)
    (visits : List NodeId) (run : Outcome × Hierarchy) : Prop where
  visited : (log config options visits before).map (fun entry => entry.2.node) = visits
  /-- Each list holds the items of the visits with its verdict, in the order of the visits. -/
  recorded : ∀ verdict, run.1.items verdict =
    ((log config options visits before).filter fun entry => entry.1 == verdict).map Prod.snd
  once : (run.1.annotated.map Item.node).Nodup
  changed : ∀ node, run.2.binding node ≠ before.binding node ↔
    ∃ item ∈ run.1.annotated, item.node = node
  named : ∀ item ∈ run.1.annotated, before.binding item.node = none ∧
    ∃ binding, run.2.binding item.node = some binding ∧ binding.name = item.detail
  /-- The node may have had its binding from the start, or have got it earlier in the run. -/
  skipped : ∀ earlier node later existing, visits = earlier ++ node :: later →
    before.binding node = some existing ∨
        (visitAll config options earlier ({}, before)).2.binding node = some existing →
      (log config options visits before)[earlier.length]? = some (.skipped,
          ⟨node, before.pathOf node, "already annotated as " ++ existing.kind.name⟩) ∧
        run.2.binding node = some existing
  frame : before.SameButBindings run.2

theorem skipped_visitAll {earlier later : List NodeId} {existing : Binding}
    (h : (visitAll config options earlier ({}, hierarchy)).2.binding node = some existing) :
    (log config options (earlier ++ node :: later) hierarchy)[earlier.length]? = some (.skipped,
        ⟨node, hierarchy.pathOf node, "already annotated as " ++ existing.kind.name⟩) ∧
      (visitAll config options (earlier ++ node :: later) ({}, hierarchy)).2.binding node =
        some existing := by
  rw [hierarchy_visitAll] at h
  constructor
  · rw [getElem?_log]
    simp only [itemAt, verdictAt_of_binding h,
      Hierarchy.pathOf_modifyAll (label_granted config options)]
  · rw [hierarchy_visitAll, ← Hierarchy.modifyAll_modifyAll (granted_granted config options)]
    exact binding_modifyAll_of_binding (node :: later) h

theorem accounts_visitAll (config : Config) (options : Options) (hierarchy : Hierarchy)
    (visits : List NodeId) :
    Accounts config options hierarchy visits (visitAll config options visits ({}, hierarchy)) where
  visited := map_node_log config options visits hierarchy
  recorded verdict := by
    rw [items_visitAll]
    cases verdict <;> rfl
  once := nodup_nodes_annotated config options hierarchy visits
  changed node := by
    constructor
    · intro hChanged
      by_contra hNone
      refine hChanged (binding_of_not_annotated fun item hItem hNode => ?_)
      exact hNone ⟨item, hItem, hNode⟩
    · rintro ⟨item, hItem, rfl⟩
      obtain ⟨hBefore, binding, _, _, hAfter⟩ := granted_of_mem_annotated hItem
      rw [hBefore, hAfter]
      exact Option.some_ne_none binding
  named item hItem := by
    obtain ⟨hBefore, binding, _, hName, hAfter⟩ := granted_of_mem_annotated hItem
    exact ⟨hBefore, binding, hAfter, hName⟩
  skipped earlier node later existing hVisits hBound := by
    subst hVisits
    refine skipped_visitAll (hBound.elim (fun hBefore => ?_) id)
    rw [hierarchy_visitAll]
    exact binding_modifyAll_of_binding earlier hBefore
  frame := by
    rw [hierarchy_visitAll]
    exact Hierarchy.sameButBindings_modifyAll (unbound_granted config options) hierarchy visits

/-- A batch visits each given node, or with it all nodes below it in pre-order, and accounts for
every visit. -/
theorem annotate_accounts (config : Config) (options : Options) (hierarchy : Hierarchy)
    (nodes : List NodeId) :
    Accounts config options hierarchy (nodes.flatMap (selection options hierarchy))
        (annotate config options hierarchy nodes) ∧
      ∀ node, selection options hierarchy node =
        if options.recursive then
          node :: (hierarchy.children node).flatMap (selection options hierarchy)
        else [node] :=
  ⟨accounts_visitAll config options hierarchy _, selection_eq options hierarchy⟩

end Batch

end TemplateBinding
