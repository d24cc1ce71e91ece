import TemplateBinding.Proofs.ArenaLoading
import TemplateBinding.Proofs.BatchAccounting

/-!
# Batches that read the hierarchy between their writes

A batch need not know its visits beforehand.  It visits a node, reads which children the node has by
then, and goes on with each of them before it comes to the next.  As no visit moves a node, this is
the same run as the one over the nodes selected at the start.
-/
namespace TemplateBinding
set_option autoImplicit false

namespace Hierarchy

variable {hierarchy : Hierarchy} {node child : NodeId}

theorem lt_length_of_mem_children (h : child ∈ hierarchy.children node) :
    node < hierarchy.places.length := by
  rw [children] at h
  cases hPlace : hierarchy.place? node with
  | none =>
    rw [hPlace] at h
    cases h
  | some place => exact (List.getElem?_eq_some_iff.mp hPlace).1

end Hierarchy

namespace Batch

variable {config : Config} {options : Options} {start : Hierarchy}

theorem children_visit (config : Config) (options : Options) (hierarchy : Hierarchy)
    (node : NodeId) :
    (visit config options hierarchy node).2.2.children = hierarchy.children := by
  rw [visit_eq, Hierarchy.modify_eq_modifyAll]
  exact (Hierarchy.sameButBindings_modifyAll (unbound_granted config options) hierarchy
    [node]).children

theorem visitAll_append (config : Config) (options : Options) (first second : List NodeId)
    (done : Outcome × Hierarchy) :
    visitAll config options (first ++ second) done =
      visitAll config options second (visitAll config options first done) := by
  induction first generalizing done with
  | nil => rfl
  | cons node first ih =>
    rw [List.cons_append, visitAll, visitAll]
    exact ih _

/-- Where a run that began with a hierarchy stands.  Its visits have moved no node. -/
structure Descent (start : Hierarchy) where
  outcome : Outcome
  hierarchy : Hierarchy
  children : hierarchy.children = start.children

namespace Descent

def begin (start : Hierarchy) : Descent start := ⟨{}, start, rfl⟩

def state (descent : Descent start) : Outcome × Hierarchy := (descent.outcome, descent.hierarchy)

def visit (config : Config) (options : Options) (descent : Descent start) (node : NodeId) :
    Descent start where
  outcome :=
    let (verdict, detail, _) := Batch.visit config options descent.hierarchy node
    descent.outcome.record verdict ⟨node, descent.hierarchy.pathOf node, detail⟩
  hierarchy := (Batch.visit config options descent.hierarchy node).2.2
  children := (children_visit config options descent.hierarchy node).trans descent.children

/-- Visits a node and then, if all nodes below are wanted, goes down to each of the children that
the node has after its visit. -/
def descend (config : Config) (options : Options) (descent : Descent start) (node : NodeId) :
    Descent start :=
  let visited := descent.visit config options node
  if options.recursive then
    (visited.hierarchy.children node).attach.foldl
      (fun earlier child => earlier.descend config options child.1) visited
  else visited
termination_by start.places.length - node
decreasing_by
  have hChild : child.1 ∈ start.children node := visited.children ▸ child.2
  exact Nat.sub_lt_sub_left (Hierarchy.lt_length_of_mem_children hChild)
    (Hierarchy.lt_of_mem_children hChild)

theorem descend_eq (config : Config) (options : Options) (descent : Descent start)
    (node : NodeId) :
    descent.descend config options node =
      if options.recursive then
        (start.children node).foldl (descend config options) (descent.visit config options node)
      else descent.visit config options node := by
  rw [descend, List.foldl_attach, (descent.visit config options node).children]

theorem state_visit (config : Config) (options : Options) (descent : Descent start)
    (node : NodeId) :
    (descent.visit config options node).state = visitAll config options [node] descent.state := rfl

theorem state_foldl {children : List NodeId}
    (h : ∀ child ∈ children, ∀ earlier : Descent start,
      (earlier.descend config options child).state =
        visitAll config options (selection options start child) earlier.state)
    (descent : Descent start) :
    (children.foldl (descend config options) descent).state =
      visitAll config options (children.flatMap (selection options start)) descent.state := by
  induction children generalizing descent with
  | nil => rfl
  | cons child children ih =>
    have hLater := ih (fun other hOther => h other (List.mem_cons_of_mem _ hOther))
      (descent.descend config options child)
    rw [List.foldl_cons, hLater, h child List.mem_cons_self, List.flatMap_cons, visitAll_append]

theorem state_descend (config : Config) (options : Options) (descent : Descent start)
    (node : NodeId) :
    (descent.descend config options node).state =
      visitAll config options (selection options start node) descent.state := by
  rw [descend_eq, selection_eq]
  cases options.recursive with
  | false => exact state_visit config options descent node
  | true =>
    have hChildren (child : NodeId) (hChild : child ∈ start.children node)
        (earlier : Descent start) := state_descend config options earlier child
    rw [if_pos rfl, if_pos rfl, state_foldl hChildren, state_visit, ← visitAll_append,
      List.singleton_append]
termination_by start.places.length - node
decreasing_by
  exact Nat.sub_lt_sub_left (Hierarchy.lt_length_of_mem_children hChild)
    (Hierarchy.lt_of_mem_children hChild)

end Descent

/-- Goes down from each of the nodes in turn. -/
def annotateInTurn (config : Config) (options : Options) (hierarchy : Hierarchy)
    (nodes : List NodeId) : Outcome × Hierarchy :=
  (nodes.foldl (Descent.descend config options) (.begin hierarchy)).state

/-- Whether the children are read between the visits or before the first of them, the run is the
same. -/
theorem annotateInTurn_eq_annotate (config : Config) (options : Options) (hierarchy : Hierarchy)
    (nodes : List NodeId) :
    annotateInTurn config options hierarchy nodes = annotate config options hierarchy nodes :=
  Descent.state_foldl (fun node _ earlier => earlier.state_descend config options node)
    (.begin hierarchy)

end Batch

end TemplateBinding
