import TemplateBinding.BatchAnnotation
import TemplateBinding.Proofs.HierarchyEdit

/-!
# Runs of batch annotation

A visit changes a record in a way that depends on this record alone, and changing it twice is
changing it once.  So what a run leaves behind depends on the set of visited nodes, not on the order
of the visits or on how often a node is visited.
-/
namespace TemplateBinding
set_option autoImplicit false

/-! ## Edits of many nodes -/

def Node.editIn (addresses : List NodeId) (change : Record → Record) (node : Node) : Node :=
  if node.id ∈ addresses then { change node.toRecord with id := node.id } else node

theorem Node.id_editIn (addresses : List NodeId) (change : Record → Record) (node : Node) :
    (node.editIn addresses change).id = node.id := by
  rw [editIn]
  split <;> rfl

namespace Hierarchy

variable {hierarchy : Hierarchy} {change : Record → Record}

def modifyAll (hierarchy : Hierarchy) (addresses : List NodeId) (change : Record → Record) :
    Hierarchy :=
  { hierarchy with
    document := hierarchy.document.mapPositions fun id record =>
      if id ∈ addresses then change record else record }

theorem nodes_modifyAll (hierarchy : Hierarchy) (addresses : List NodeId)
    (change : Record → Record) :
    (hierarchy.modifyAll addresses change).nodes =
      hierarchy.nodes.map (Node.editIn addresses change) := by
  rw [nodes, modifyAll, Tree.mapPositions_mapPositions, nodes, Tree.map_mapPositions]
  congr 1
  funext id record
  by_cases h : id ∈ addresses
  · simp only [Node.editIn, if_pos h]
  · simp only [Node.editIn, if_neg h]

theorem place?_modifyAll (hierarchy : Hierarchy) (addresses : List NodeId)
    (change : Record → Record) (node : NodeId) :
    (hierarchy.modifyAll addresses change).place? node =
      (hierarchy.place? node).map (Place.map (Node.editIn addresses change)) := by
  rw [place?, places, nodes_modifyAll, Tree.places_map, List.getElem?_map]
  rfl

theorem modifyAll_nil (hierarchy : Hierarchy) (change : Record → Record) :
    hierarchy.modifyAll [] change = hierarchy := by
  refine eq_of_nodes_eq ?_ rfl
  rw [nodes_modifyAll]
  exact Tree.map_id_of_forall _ _ fun value _ => if_neg List.not_mem_nil

theorem modify_eq_modifyAll (hierarchy : Hierarchy) (node : NodeId) (change : Record → Record) :
    hierarchy.modify node change = hierarchy.modifyAll [node] change := by
  refine eq_of_nodes_eq ?_ rfl
  rw [nodes_modify, nodes_modifyAll]
  refine Tree.map_congr _ _ _ fun value _ => ?_
  simp only [Node.editAt, Node.editIn, List.mem_singleton]

theorem modifyAll_modifyAll (h : ∀ record, change (change record) = change record)
    (hierarchy : Hierarchy) (first second : List NodeId) :
    (hierarchy.modifyAll first change).modifyAll second change =
      hierarchy.modifyAll (first ++ second) change := by
  refine eq_of_nodes_eq ?_ rfl
  rw [nodes_modifyAll, nodes_modifyAll, nodes_modifyAll, Tree.map_map]
  refine Tree.map_congr _ _ _ fun value _ => ?_
  by_cases hFirst : value.id ∈ first <;> by_cases hSecond : value.id ∈ second <;>
    simp [Node.editIn, hFirst, hSecond, h]

theorem modifyAll_congr {first second : List NodeId}
    (h : ∀ value ∈ hierarchy.nodes.values, value.id ∈ first ↔ value.id ∈ second) :
    hierarchy.modifyAll first change = hierarchy.modifyAll second change := by
  refine eq_of_nodes_eq ?_ rfl
  rw [nodes_modifyAll, nodes_modifyAll]
  refine Tree.map_congr _ _ _ fun value hValue => ?_
  rw [Node.editIn, Node.editIn]
  simp only [h value hValue]

theorem pathOf_modifyAll (h : ∀ record, (change record).label = record.label)
    (hierarchy : Hierarchy) (addresses : List NodeId) (node : NodeId) :
    (hierarchy.modifyAll addresses change).pathOf node = hierarchy.pathOf node := by
  have hLabel (value : Node) : (value.editIn addresses change).label = value.label := by
    rw [Node.editIn]
    split
    · exact h value.toRecord
    · rfl
  rw [pathOf, pathOf, place?_modifyAll]
  cases hierarchy.place? node with
  | none => rfl
  | some place =>
    have hLabels : labels (place.map (Node.editIn addresses change)) = labels place := by
      simp only [labels, Place.map, List.reverse_cons, List.map_append, List.map_reverse,
        List.map_map, List.map_cons, List.map_nil, Function.comp_def, hLabel]
    simp only [Option.map_some, Option.elim_some, hLabels]

end Hierarchy

namespace Batch

variable {config : Config} {options : Options} {hierarchy : Hierarchy} {node : NodeId}
  {record : Record}

/-! ## Records -/

/-- What a visit says about a record at an address. -/
def judge (config : Config) (options : Options) (node : NodeId) (record : Record) :
    Verdict × String :=
  match record.binding with
  | some existing => (.skipped, "already annotated as " ++ existing.kind.name)
  | none =>
    match bindingFor? config options record.label record.capabilities with
    | none => (.failed, "'" ++ record.label ++ "' has no capability to use as type reference")
    | some binding =>
      if record.readOnly then (.failed, (Error.readOnly node).message)
      else (.annotated, binding.name)

def granted (config : Config) (options : Options) (record : Record) : Record :=
  match record.binding with
  | some _ => record
  | none =>
    match bindingFor? config options record.label record.capabilities with
    | none => record
    | some binding => if record.readOnly then record else { record with binding := some binding }

theorem granted_cases (config : Config) (options : Options) (node : NodeId) (record : Record) :
    (judge config options node record).1 ≠ .annotated ∧ granted config options record = record ∨
      ∃ binding, granted config options record = { record with binding := some binding } ∧
        judge config options node record = (.annotated, binding.name) := by
  rw [judge, granted]
  cases record.binding with
  | some existing => exact .inl ⟨Verdict.noConfusion, rfl⟩
  | none =>
    cases bindingFor? config options record.label record.capabilities with
    | none => exact .inl ⟨Verdict.noConfusion, rfl⟩
    | some binding =>
      cases hReadOnly : record.readOnly with
      | true => exact .inl ⟨Verdict.noConfusion, rfl⟩
      | false => exact .inr ⟨binding, rfl, rfl⟩

theorem granted_granted (config : Config) (options : Options) (record : Record) :
    granted config options (granted config options record) = granted config options record := by
  rcases granted_cases config options 0 record with ⟨_, hSame⟩ | ⟨binding, hGranted, _⟩
  · rw [hSame, hSame]
  · rw [hGranted]
    rfl

theorem label_granted (config : Config) (options : Options) (record : Record) :
    (granted config options record).label = record.label := by
  rcases granted_cases config options 0 record with ⟨_, hSame⟩ | ⟨binding, hGranted, _⟩
  · rw [hSame]
  · rw [hGranted]

/-- A record that got a binding is skipped from then on, any other one is judged as before. -/
theorem judge_granted (config : Config) (options : Options) (node : NodeId) (record : Record) :
    (judge config options node record).1 = .annotated ∧
        (judge config options node (granted config options record)).1 = .skipped ∨
      (judge config options node record).1 ≠ .annotated ∧
        judge config options node (granted config options record) =
          judge config options node record := by
  rcases granted_cases config options node record with ⟨hOther, hSame⟩ | ⟨binding, hGranted, hJudge⟩
  · rw [hSame]
    exact .inr ⟨hOther, rfl⟩
  · rw [hGranted, hJudge]
    exact .inl ⟨rfl, rfl⟩

/-! ## Visits -/

def verdictAt (config : Config) (options : Options) (hierarchy : Hierarchy) (node : NodeId) :
    Verdict × String :=
  match hierarchy.place? node with
  | some place => judge config options node place.value.toRecord
  | none =>
    match bindingFor? config options "" [] with
    | none => (.failed, "'" ++ "" ++ "' has no capability to use as type reference")
    | some _ => (.failed, (Error.unknownNode node).message)

theorem setBinding_of_place? {place : Place Node} (h : hierarchy.place? node = some place)
    (binding : Binding) :
    hierarchy.setBinding node binding =
      if place.value.readOnly then .error (.readOnly node)
      else .ok (hierarchy.modify node fun record => { record with binding := some binding }) := by
  rw [Hierarchy.setBinding, Hierarchy.writable, h]
  cases hReadOnly : place.value.readOnly <;> simp [hReadOnly]

theorem visit_of_place? {place : Place Node} (h : hierarchy.place? node = some place) :
    visit config options hierarchy node =
      ((judge config options node place.value.toRecord).1,
        (judge config options node place.value.toRecord).2,
        hierarchy.modify node (granted config options)) := by
  have hSame {change : Record → Record}
      (hChange : granted config options place.value.toRecord = change place.value.toRecord) :
      hierarchy.modify node (granted config options) = hierarchy.modify node change := by
    refine Hierarchy.modify_congr fun other hOther => ?_
    rw [h] at hOther
    cases hOther
    exact hChange
  have hUnchanged (hRecord : granted config options place.value.toRecord = place.value.toRecord) :
      hierarchy.modify node (granted config options) = hierarchy := by
    rw [@hSame id hRecord]
    exact Hierarchy.modify_eq_self fun _ _ => rfl
  have hBinding : hierarchy.binding node = place.value.binding := by rw [Hierarchy.binding, h]; rfl
  have hLabel : hierarchy.label node = place.value.label := by rw [Hierarchy.label, h]; rfl
  have hCapabilities : hierarchy.capabilities node = place.value.capabilities := by
    rw [Hierarchy.capabilities, h]
    rfl
  rw [visit, hBinding, hLabel, hCapabilities]
  cases hExisting : place.value.binding with
  | some existing =>
    rw [hUnchanged (by simp only [granted, hExisting])]
    simp only [judge, hExisting]
  | none =>
    cases hGiven : bindingFor? config options place.value.label place.value.capabilities with
    | none =>
      rw [hUnchanged (by simp only [granted, hExisting, hGiven])]
      simp only [judge, hExisting, hGiven]
    | some binding =>
      simp only [judge, hExisting, hGiven, setBinding_of_place? h]
      cases hReadOnly : place.value.readOnly with
      | true =>
        rw [hUnchanged (by simp only [granted, hExisting, hGiven, hReadOnly, if_true])]
        rfl
      | false =>
        have hGranted : granted config options place.value.toRecord =
            { place.value.toRecord with binding := some binding } := by
          simp only [granted, hExisting, hGiven, hReadOnly, Bool.false_eq_true, if_false]
        rw [@hSame (fun record => { record with binding := some binding }) hGranted]
        rfl

theorem visit_eq (config : Config) (options : Options) (hierarchy : Hierarchy) (node : NodeId) :
    visit config options hierarchy node =
      ((verdictAt config options hierarchy node).1, (verdictAt config options hierarchy node).2,
        hierarchy.modify node (granted config options)) := by
  cases hPlace : hierarchy.place? node with
  | some place => rw [visit_of_place? hPlace, verdictAt, hPlace]
  | none =>
    have hUnchanged : hierarchy.modify node (granted config options) = hierarchy :=
      Hierarchy.modify_eq_self fun place hKnown => by rw [hPlace] at hKnown; cases hKnown
    have hWrite (binding : Binding) :
        hierarchy.setBinding node binding = .error (.unknownNode node) := by
      rw [Hierarchy.setBinding, Hierarchy.writable, hPlace]
    rw [hUnchanged, visit, verdictAt]
    simp only [Hierarchy.binding, Hierarchy.label, Hierarchy.capabilities, hPlace, hWrite,
      Option.bind_none, Option.elim_none]
    cases bindingFor? config options "" [] <;> rfl

/-- Visits do not change what is said about an address, except that a node that would be annotated
is skipped once it has been visited. -/
theorem verdictAt_modifyAll (config : Config) (options : Options) (hierarchy : Hierarchy)
    (visits : List NodeId) (node : NodeId) :
    ((verdictAt config options hierarchy node).1 = .annotated ∧ node ∈ visits ∧
        (verdictAt config options (hierarchy.modifyAll visits (granted config options)) node).1 =
          .skipped) ∨
      (¬((verdictAt config options hierarchy node).1 = .annotated ∧ node ∈ visits) ∧
        verdictAt config options (hierarchy.modifyAll visits (granted config options)) node =
          verdictAt config options hierarchy node) := by
  rw [verdictAt, verdictAt, Hierarchy.place?_modifyAll]
  cases hPlace : hierarchy.place? node with
  | none =>
    refine .inr ⟨?_, rfl⟩
    rintro ⟨hAnnotated, _⟩
    dsimp only at hAnnotated
    split at hAnnotated <;> cases hAnnotated
  | some place =>
    have hId : place.value.id = node := Hierarchy.id_of_place? hPlace
    rw [Option.map_some, Place.map]
    by_cases hVisited : node ∈ visits
    · have hNode : (place.value.editIn visits (granted config options)).toRecord =
          granted config options place.value.toRecord := by
        rw [Node.editIn, if_pos (hId ▸ hVisited)]
      simp only [hNode, hVisited, true_and, and_true]
      exact judge_granted config options node place.value.toRecord
    · have hNode : place.value.editIn visits (granted config options) = place.value := by
        rw [Node.editIn, if_neg (hId ▸ hVisited)]
      simp only [hNode, hVisited, and_false, false_and, not_false_eq_true, true_and, or_true]

def itemAt (config : Config) (options : Options) (hierarchy : Hierarchy) (node : NodeId) : Item :=
  ⟨node, hierarchy.pathOf node, (verdictAt config options hierarchy node).2⟩

/-- The entry that a visit makes in the list for a verdict. -/
def itemFor? (config : Config) (options : Options) (verdict : Verdict) (hierarchy : Hierarchy)
    (node : NodeId) : Option Item :=
  if (verdictAt config options hierarchy node).1 = verdict then
    some (itemAt config options hierarchy node)
  else none

theorem itemFor?_congr {verdict : Verdict} {visits : List NodeId}
    (h : verdictAt config options (hierarchy.modifyAll visits (granted config options)) node =
      verdictAt config options hierarchy node) :
    itemFor? config options verdict (hierarchy.modifyAll visits (granted config options)) node =
      itemFor? config options verdict hierarchy node := by
  rw [itemFor?, itemFor?, itemAt, itemAt, h,
    Hierarchy.pathOf_modifyAll (label_granted config options)]

theorem failed?_modifyAll (config : Config) (options : Options) (hierarchy : Hierarchy)
    (visits : List NodeId) (node : NodeId) :
    itemFor? config options .failed (hierarchy.modifyAll visits (granted config options)) node =
      itemFor? config options .failed hierarchy node := by
  rcases verdictAt_modifyAll config options hierarchy visits node with
    ⟨hAnnotated, _, hSkipped⟩ | ⟨_, hSame⟩
  · rw [itemFor?, itemFor?, hAnnotated, hSkipped]
    rfl
  · exact itemFor?_congr hSame

theorem annotated?_modifyAll (config : Config) (options : Options) (hierarchy : Hierarchy)
    (visits : List NodeId) (node : NodeId) :
    itemFor? config options .annotated (hierarchy.modifyAll visits (granted config options)) node =
      if node ∈ visits then none else itemFor? config options .annotated hierarchy node := by
  rcases verdictAt_modifyAll config options hierarchy visits node with
    ⟨_, hVisited, hSkipped⟩ | ⟨hOther, hSame⟩
  · rw [itemFor?, hSkipped, if_pos hVisited]
    rfl
  · rw [itemFor?_congr hSame]
    split
    · rename_i hVisited
      exact if_neg fun hAnnotated => hOther ⟨hAnnotated, hVisited⟩
    · rfl

theorem node_of_itemFor? {verdict : Verdict} {item : Item}
    (h : itemFor? config options verdict hierarchy node = some item) : item.node = node := by
  rw [itemFor?] at h
  split at h
  · cases h
    rfl
  · cases h

/-! ## Runs -/

variable {outcome : Outcome} {visits : List NodeId} {item : Item}

theorem visitAll_cons (config : Config) (options : Options) (node : NodeId) (visits : List NodeId)
    (outcome : Outcome) (hierarchy : Hierarchy) :
    visitAll config options (node :: visits) (outcome, hierarchy) =
      visitAll config options visits
        (outcome.record (verdictAt config options hierarchy node).1
            (itemAt config options hierarchy node),
          hierarchy.modifyAll [node] (granted config options)) := by
  rw [visitAll, visit_eq, Hierarchy.modify_eq_modifyAll]
  rfl

theorem hierarchy_visitAll (config : Config) (options : Options) (visits : List NodeId)
    (outcome : Outcome) (hierarchy : Hierarchy) :
    (visitAll config options visits (outcome, hierarchy)).2 =
      hierarchy.modifyAll visits (granted config options) := by
  induction visits generalizing outcome hierarchy with
  | nil => exact (Hierarchy.modifyAll_nil hierarchy _).symm
  | cons node visits ih =>
    rw [visitAll_cons, ih, Hierarchy.modifyAll_modifyAll (granted_granted config options)]
    rfl

theorem failed_record (outcome : Outcome) (config : Config) (options : Options)
    (hierarchy : Hierarchy) (node : NodeId) :
    (outcome.record (verdictAt config options hierarchy node).1
        (itemAt config options hierarchy node)).failed =
      outcome.failed ++ (itemFor? config options .failed hierarchy node).toList := by
  rw [itemFor?]
  cases (verdictAt config options hierarchy node).1 <;> simp [Outcome.record]

theorem annotated_record (outcome : Outcome) (config : Config) (options : Options)
    (hierarchy : Hierarchy) (node : NodeId) :
    (outcome.record (verdictAt config options hierarchy node).1
        (itemAt config options hierarchy node)).annotated =
      outcome.annotated ++ (itemFor? config options .annotated hierarchy node).toList := by
  rw [itemFor?]
  cases (verdictAt config options hierarchy node).1 <;> simp [Outcome.record]

/-- A node fails in each of its visits or in none. -/
theorem failed_visitAll (config : Config) (options : Options) (visits : List NodeId)
    (outcome : Outcome) (hierarchy : Hierarchy) :
    (visitAll config options visits (outcome, hierarchy)).1.failed =
      outcome.failed ++ visits.filterMap (itemFor? config options .failed hierarchy) := by
  induction visits generalizing outcome hierarchy with
  | nil => exact (List.append_nil _).symm
  | cons node visits ih =>
    have hOthers : itemFor? config options .failed
        (hierarchy.modifyAll [node] (granted config options)) =
          itemFor? config options .failed hierarchy :=
      funext (failed?_modifyAll config options hierarchy [node])
    rw [visitAll_cons, ih, hOthers, failed_record, List.append_assoc, List.filterMap_cons]
    cases itemFor? config options .failed hierarchy node <;> rfl

/-- A node is annotated in the first of its visits or in none. -/
theorem mem_annotated_visitAll :
    item ∈ (visitAll config options visits (outcome, hierarchy)).1.annotated ↔
      item ∈ outcome.annotated ∨
        ∃ node ∈ visits, itemFor? config options .annotated hierarchy node = some item := by
  induction visits generalizing outcome hierarchy with
  | nil => simp [visitAll]
  | cons node visits ih =>
    rw [visitAll_cons, ih, annotated_record, List.mem_append, Option.mem_toList, or_assoc]
    refine or_congr_right ?_
    -- The first visit takes its node away from the later ones.
    simp only [annotated?_modifyAll, List.mem_singleton]
    constructor
    · rintro (hItem | ⟨other, hOther, hItem⟩)
      · exact ⟨node, List.mem_cons_self, hItem⟩
      · split at hItem
        · cases hItem
        · exact ⟨other, List.mem_cons_of_mem _ hOther, hItem⟩
    · rintro ⟨other, hOther, hItem⟩
      by_cases hSame : other = node
      · exact .inl (hSame ▸ hItem)
      · refine .inr ⟨other, List.mem_of_ne_of_mem hSame hOther, ?_⟩
        rw [if_neg hSame, hItem]

/-- No node is annotated twice. -/
structure Recorded (config : Config) (options : Options) (done : Outcome × Hierarchy) : Prop where
  nodup : done.1.annotated.Nodup
  settled : ∀ item ∈ done.1.annotated,
    itemFor? config options .annotated done.2 item.node = none

theorem Recorded.visit (h : Recorded config options (outcome, hierarchy)) (node : NodeId) :
    Recorded config options
      (outcome.record (verdictAt config options hierarchy node).1
          (itemAt config options hierarchy node),
        hierarchy.modifyAll [node] (granted config options)) := by
  constructor
  · rw [annotated_record]
    refine List.nodup_append.mpr ⟨h.nodup, ?_, ?_⟩
    · cases itemFor? config options .annotated hierarchy node with
      | none => exact List.nodup_nil
      | some item => exact List.nodup_singleton item
    · intro first hFirst second hSecond hSame
      have hSecond := Option.mem_toList.mp hSecond
      have hNone := h.settled first hFirst
      rw [hSame, node_of_itemFor? hSecond, hSecond] at hNone
      cases hNone
  · intro item hItem
    rw [annotated_record, List.mem_append, Option.mem_toList] at hItem
    rw [annotated?_modifyAll]
    rcases hItem with hItem | hItem
    · rw [h.settled item hItem, ite_self]
    · rw [node_of_itemFor? hItem, if_pos (List.mem_singleton_self node)]

theorem Recorded.visitAll (h : Recorded config options (outcome, hierarchy)) :
    Recorded config options (visitAll config options visits (outcome, hierarchy)) := by
  induction visits generalizing outcome hierarchy with
  | nil => exact h
  | cons node visits ih =>
    rw [visitAll_cons]
    exact ih (h.visit node)

theorem recorded_start (config : Config) (options : Options) (hierarchy : Hierarchy) :
    Recorded config options ({}, hierarchy) :=
  ⟨List.nodup_nil, fun _ hItem => by cases hItem⟩

/-! ## Batches -/

def visited (options : Options) (hierarchy : Hierarchy) (nodes : List NodeId) : List NodeId :=
  nodes.flatMap (selection options hierarchy)

theorem visited_modifyAll (options : Options) (hierarchy : Hierarchy) (addresses : List NodeId)
    (change : Record → Record) :
    visited options (hierarchy.modifyAll addresses change) = visited options hierarchy := by
  have hSelection : selection options (hierarchy.modifyAll addresses change) =
      selection options hierarchy := by
    funext node
    rw [selection, selection, Hierarchy.place?_modifyAll]
    cases options.recursive with
    | false => rfl
    | true =>
      cases hierarchy.place? node with
      | none => rfl
      | some place =>
        have hIds : (Tree.ofPlace (place.map (Node.editIn addresses change))).values =
            (Tree.ofPlace place).values.map (Node.editIn addresses change) :=
          Tree.values_map (Node.editIn addresses change) (Tree.ofPlace place)
        rw [Option.map_some]
        simp only [hIds, List.map_map, Function.comp_def, Node.id_editIn]
  funext nodes
  rw [visited, visited, hSelection]

theorem mem_visited_of_perm {nodes others : List NodeId} (h : nodes.Perm others) :
    node ∈ visited options hierarchy nodes ↔ node ∈ visited options hierarchy others := by
  simp only [visited, List.mem_flatMap, h.mem_iff]

/-- The runs visit the same nodes of the hierarchy. -/
def SameNodes (options : Options) (hierarchy : Hierarchy) (nodes others : List NodeId) : Prop :=
  ∀ value ∈ hierarchy.nodes.values,
    value.id ∈ visited options hierarchy nodes ↔ value.id ∈ visited options hierarchy others

theorem mem_nodes_of_annotated?
    (h : itemFor? config options .annotated hierarchy node = some item) :
    ∃ value ∈ hierarchy.nodes.values, value.id = node := by
  cases hPlace : hierarchy.place? node with
  | some place =>
    exact ⟨place.value, Hierarchy.mem_nodes_of_place? hPlace, Hierarchy.id_of_place? hPlace⟩
  | none =>
    rw [itemFor?, verdictAt, hPlace] at h
    dsimp only at h
    split at h <;> cases h

theorem hierarchy_annotate (config : Config) (options : Options) (hierarchy : Hierarchy)
    (nodes : List NodeId) :
    (annotate config options hierarchy nodes).2 =
      hierarchy.modifyAll (visited options hierarchy nodes) (granted config options) :=
  hierarchy_visitAll config options _ _ hierarchy

theorem failed_annotate (config : Config) (options : Options) (hierarchy : Hierarchy)
    (nodes : List NodeId) :
    (annotate config options hierarchy nodes).1.failed =
      (visited options hierarchy nodes).filterMap (itemFor? config options .failed hierarchy) :=
  failed_visitAll config options _ _ hierarchy

theorem mem_annotated_annotate {nodes : List NodeId} :
    item ∈ (annotate config options hierarchy nodes).1.annotated ↔
      ∃ node ∈ visited options hierarchy nodes,
        itemFor? config options .annotated hierarchy node = some item := by
  rw [annotate, mem_annotated_visitAll]
  simp only [visited, List.not_mem_nil, false_or]

theorem nodup_annotated_annotate (config : Config) (options : Options) (hierarchy : Hierarchy)
    (nodes : List NodeId) : (annotate config options hierarchy nodes).1.annotated.Nodup :=
  (recorded_start config options hierarchy).visitAll.nodup

theorem annotate_congr {nodes others : List NodeId}
    (h : SameNodes options hierarchy nodes others) :
    (annotate config options hierarchy others).2 = (annotate config options hierarchy nodes).2 ∧
      (annotate config options hierarchy others).1.annotated.Perm
        (annotate config options hierarchy nodes).1.annotated := by
  refine ⟨?_, ?_⟩
  · rw [hierarchy_annotate, hierarchy_annotate]
    exact (Hierarchy.modifyAll_congr h).symm
  · refine (List.perm_ext_iff_of_nodup (nodup_annotated_annotate config options hierarchy others)
      (nodup_annotated_annotate config options hierarchy nodes)).mpr fun item => ?_
    -- Only known nodes are annotated, and these the runs have in common.
    have hNode {node : NodeId}
        (hItem : itemFor? config options .annotated hierarchy node = some item) :
        node ∈ visited options hierarchy nodes ↔ node ∈ visited options hierarchy others := by
      obtain ⟨value, hValue, rfl⟩ := mem_nodes_of_annotated? hItem
      exact h value hValue
    rw [mem_annotated_annotate, mem_annotated_annotate]
    constructor
    · rintro ⟨node, hVisited, hItem⟩
      exact ⟨node, (hNode hItem).mpr hVisited, hItem⟩
    · rintro ⟨node, hVisited, hItem⟩
      exact ⟨node, (hNode hItem).mp hVisited, hItem⟩

/-- The second run finds every node that it could annotate already annotated. -/
theorem annotate_annotate (config : Config) (options : Options) (hierarchy : Hierarchy)
    (nodes : List NodeId) :
    let first := annotate config options hierarchy nodes
    let second := annotate config options first.2 nodes
    second.2 = first.2 ∧ second.1.annotated = [] ∧ second.1.failed = first.1.failed := by
  intro first second
  have hFirst : first.2 =
      hierarchy.modifyAll (visited options hierarchy nodes) (granted config options) :=
    hierarchy_annotate config options hierarchy nodes
  have hVisited : visited options first.2 nodes = visited options hierarchy nodes := by
    rw [hFirst, visited_modifyAll]
  refine ⟨?_, ?_, ?_⟩
  · rw [hierarchy_annotate, hVisited, hFirst,
      Hierarchy.modifyAll_modifyAll (granted_granted config options)]
    refine Hierarchy.modifyAll_congr fun value _ => ?_
    rw [List.mem_append, or_self]
  · refine List.eq_nil_iff_forall_not_mem.mpr fun item hItem => ?_
    obtain ⟨node, hNode, hAnnotated⟩ := mem_annotated_annotate.mp hItem
    rw [hVisited] at hNode
    rw [hFirst, annotated?_modifyAll, if_pos hNode] at hAnnotated
    cases hAnnotated
  · have hSame : itemFor? config options .failed first.2 =
        itemFor? config options .failed hierarchy := by
      rw [hFirst]
      exact funext (failed?_modifyAll config options hierarchy _)
    rw [failed_annotate, failed_annotate, hVisited, hSame]

/-- Neither the order nor the number of the visits matters, and a second run does nothing. -/
theorem annotate_settles (config : Config) (options : Options) (hierarchy : Hierarchy)
    (nodes : List NodeId) :
    let run := annotate config options hierarchy nodes
    let again := annotate config options run.2 nodes
    (∀ others, nodes.Perm others ∨ SameNodes options hierarchy nodes others →
      (annotate config options hierarchy others).2 = run.2 ∧
        (annotate config options hierarchy others).1.annotated.Perm run.1.annotated) ∧
      again.2 = run.2 ∧ again.1.annotated = [] ∧ again.1.failed = run.1.failed := by
  refine ⟨fun others h => annotate_congr ?_, annotate_annotate config options hierarchy nodes⟩
  rcases h with hPerm | hSame
  · exact fun value _ => mem_visited_of_perm hPerm
  · exact hSame

def lockedBar : Hierarchy where
  document := ⟨{ label := "Hud" }, .ofTrees [⟨{ label := "Bar", readOnly := true }, .ofTrees [
    ⟨{ label := "Close", capabilities := ["button"] }, .nil⟩, ⟨{ label := "Score" }, .nil⟩]⟩]⟩

def membersBelow : Options := ⟨true, some .member, true⟩

theorem annotate_settles_lockedBar :
    ([1, 3, 9].Perm [9, 3, 1] ∨ SameNodes membersBelow lockedBar [1, 3, 9] [9, 3, 1]) ∧
      SameNodes membersBelow lockedBar [1, 3, 9] [2, 1] ∧
      (annotate {} membersBelow lockedBar [2, 1]).2 =
        (annotate {} membersBelow lockedBar [1, 3, 9]).2 ∧
      (annotate {} membersBelow lockedBar [9, 3, 1]).2 =
        (annotate {} membersBelow lockedBar [1, 3, 9]).2 ∧
      (annotate {} membersBelow lockedBar [1, 3, 9]).1.annotated.map (fun item => item.node) =
        [2, 3] ∧
      (annotate {} membersBelow (annotate {} membersBelow lockedBar [1, 3, 9]).2
        [1, 3, 9]).1.annotated = [] := by
  have hPerm : [1, 3, 9].Perm [9, 3, 1] := by decide
  have hSame : SameNodes membersBelow lockedBar [1, 3, 9] [2, 1] := by
    unfold SameNodes
    decide
  have hRun := annotate_settles {} membersBelow lockedBar [1, 3, 9]
  exact ⟨.inl hPerm, hSame, (hRun.1 [2, 1] (.inr hSame)).1, (hRun.1 [9, 3, 1] (.inl hPerm)).1,
    by decide, hRun.2.2.1⟩

end Batch

end TemplateBinding
