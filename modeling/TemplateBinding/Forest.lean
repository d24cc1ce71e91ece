/-!
# Ordered forests

A forest is a sequence of trees.  It is written as its first tree, split into a value and the
forest below it, followed by the rest of the sequence, so a plain induction reaches every node.
The positions of a forest are counted in pre-order: a node comes before the nodes below it, and
those come before the nodes to its right.

A place is a node together with the values above it, nearest first, and the forest below it.
-/
namespace TemplateBinding
set_option autoImplicit false

universe u v

inductive Forest (α : Type u) where
  | nil
  | cons (value : α) (below rest : Forest α)
  deriving Repr, DecidableEq

/-- A node with the values above it, nearest first, and the forest below it. -/
structure Place (α : Type u) where
  above : List α
  value : α
  below : Forest α
  deriving Repr, DecidableEq

namespace Forest

variable {α : Type u} {β : Type v}

def size : Forest α → Nat
  | nil => 0
  | cons _ below rest => below.size + rest.size + 1

def values : Forest α → List α
  | nil => []
  | cons value below rest => value :: (below.values ++ rest.values)

def roots : Forest α → List α
  | nil => []
  | cons value _ rest => value :: rest.roots

def append : Forest α → Forest α → Forest α
  | nil, other => other
  | cons value below rest, other => cons value below (rest.append other)

instance : Append (Forest α) := ⟨append⟩

def map (f : α → β) : Forest α → Forest β
  | nil => nil
  | cons value below rest => cons (f value) (below.map f) (rest.map f)

/-- Maps every value together with its position, the first position being `start`. -/
def mapPositions (f : Nat → α → β) (start : Nat) : Forest α → Forest β
  | nil => nil
  | cons value below rest =>
      cons (f start value) (below.mapPositions f (start + 1))
        (rest.mapPositions f (start + 1 + below.size))

/-- Changes the value at one position; a position outside the forest changes nothing. -/
def modify (f : α → α) : Nat → Forest α → Forest α
  | _, nil => nil
  | 0, cons value below rest => cons (f value) below rest
  | position + 1, cons value below rest =>
      if position < below.size then cons value (below.modify f position) rest
      else cons value below (rest.modify f (position - below.size))

/-- The places in pre-order, each below the given values. -/
def places (above : List α) : Forest α → List (Place α)
  | nil => []
  | cons value below rest =>
      ⟨above, value, below⟩ :: (below.places (value :: above) ++ rest.places above)

@[simp] theorem nil_append (other : Forest α) : nil ++ other = other := rfl

@[simp] theorem cons_append (value : α) (below rest other : Forest α) :
    cons value below rest ++ other = cons value below (rest ++ other) := rfl

@[simp] theorem append_nil (forest : Forest α) : forest ++ nil = forest := by
  induction forest with
  | nil => rfl
  | cons value below rest _ hRest => rw [cons_append, hRest]

theorem append_assoc (first second third : Forest α) :
    first ++ second ++ third = first ++ (second ++ third) := by
  induction first with
  | nil => rfl
  | cons value below rest _ hRest => simp only [cons_append, hRest]

@[simp] theorem values_append (first second : Forest α) :
    (first ++ second).values = first.values ++ second.values := by
  induction first with
  | nil => rfl
  | cons value below rest _ hRest => simp only [cons_append, values, hRest, List.cons_append,
      List.append_assoc]

@[simp] theorem length_values (forest : Forest α) : forest.values.length = forest.size := by
  induction forest with
  | nil => rfl
  | cons value below rest hBelow hRest =>
    simp only [values, size, List.length_cons, List.length_append, hBelow, hRest]

@[simp] theorem values_map (f : α → β) (forest : Forest α) :
    (forest.map f).values = forest.values.map f := by
  induction forest with
  | nil => rfl
  | cons value below rest hBelow hRest => simp only [map, values, hBelow, hRest, List.map_cons,
      List.map_append]

@[simp] theorem size_mapPositions (f : Nat → α → β) (start : Nat) (forest : Forest α) :
    (forest.mapPositions f start).size = forest.size := by
  induction forest generalizing start with
  | nil => rfl
  | cons value below rest hBelow hRest => simp only [mapPositions, size, hBelow, hRest]

@[simp] theorem map_value_places (above : List α) (forest : Forest α) :
    (forest.places above).map Place.value = forest.values := by
  induction forest generalizing above with
  | nil => rfl
  | cons value below rest hBelow hRest => simp only [places, values, List.map_cons, List.map_append,
      hBelow, hRest]

@[simp] theorem length_places (above : List α) (forest : Forest α) :
    (forest.places above).length = forest.size := by
  rw [← length_values, ← map_value_places above, List.length_map]

end Forest

/-- A tree is a value at the top and the forest below it. -/
structure Tree (α : Type u) where
  root : α
  children : Forest α
  deriving Repr, DecidableEq

namespace Tree

variable {α : Type u} {β : Type v}

def size (tree : Tree α) : Nat := tree.children.size + 1

def values (tree : Tree α) : List α := tree.root :: tree.children.values

def map (f : α → β) (tree : Tree α) : Tree β := ⟨f tree.root, tree.children.map f⟩

def mapPositions (f : Nat → α → β) (tree : Tree α) : Tree β :=
  ⟨f 0 tree.root, tree.children.mapPositions f 1⟩

/-- Changes the value at one pre-order position, the root having position zero. -/
def modify (f : α → α) : Nat → Tree α → Tree α
  | 0, tree => ⟨f tree.root, tree.children⟩
  | position + 1, tree => ⟨tree.root, tree.children.modify f position⟩

def places (tree : Tree α) : List (Place α) :=
  ⟨[], tree.root, tree.children⟩ :: tree.children.places [tree.root]

def ofPlace (place : Place α) : Tree α := ⟨place.value, place.below⟩

@[simp] theorem length_values (tree : Tree α) : tree.values.length = tree.size := by
  simp only [values, size, List.length_cons, Forest.length_values]

@[simp] theorem length_places (tree : Tree α) : tree.places.length = tree.size := by
  simp only [places, size, List.length_cons, Forest.length_places]

@[simp] theorem map_value_places (tree : Tree α) : tree.places.map Place.value = tree.values := by
  simp only [places, values, List.map_cons, Forest.map_value_places]

end Tree

def Forest.ofTrees {α : Type u} : List (Tree α) → Forest α
  | [] => .nil
  | tree :: trees => .cons tree.root tree.children (ofTrees trees)

end TemplateBinding
