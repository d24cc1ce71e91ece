import TemplateBinding.TemplateFile
import TemplateBinding.Proofs.DocumentText
import TemplateBinding.Proofs.HierarchyEdit

/-!
# Reading documents back

Every level of nodes opens two containers in the text of a document: one for the node, and one for
the list of its children, which is written even when it is empty.  A decoder that may open enough
containers for all levels returns the document that was written, and any other one refuses it.  A
text written by someone else may leave the last list out, so it can have one level more.
-/
namespace TemplateBinding
set_option autoImplicit false

universe u

namespace Forest

variable {α : Type u}

/-- How many nodes there are on the longest way down. -/
def levels : Forest α → Nat
  | nil => 0
  | cons _ below rest => max (below.levels + 1) rest.levels

def trees : Forest α → List (Tree α)
  | nil => []
  | cons value below rest => ⟨value, below⟩ :: rest.trees

theorem ofTrees_trees (forest : Forest α) : ofTrees forest.trees = forest := by
  induction forest with
  | nil => rfl
  | cons value below rest _ hRest => rw [trees, ofTrees, hRest]

end Forest

namespace Tree

variable {α : Type u}

def levels (tree : Tree α) : Nat := tree.children.levels + 1

theorem levels_ofTrees_le {trees : List (Tree α)} {bound : Nat}
    (h : ∀ tree ∈ trees, tree.levels ≤ bound) : (Forest.ofTrees trees).levels ≤ bound := by
  induction trees with
  | nil => exact Nat.zero_le _
  | cons tree trees ih =>
    obtain ⟨hTree, hTrees⟩ := List.forall_mem_cons.mp h
    rw [Forest.ofTrees, Forest.levels]
    exact Nat.max_le.mpr ⟨hTree, ih hTrees⟩

end Tree

/-! ## Fields -/

namespace Json

theorem strings?_strings (limit : Nat) (texts : List String) :
    strings? (limit + 1) (strings texts) = some texts := by
  rw [strings?, listOf, strings, items?]
  induction texts with
  | nil => rfl
  | cons text texts ih => rw [List.map_cons, List.mapM_cons, ih]; rfl

theorem nullable_ofOption {α : Type} {encode : α → Json} {decode : Json → Option α}
    (hDecode : ∀ value, decode (encode value) = some value) (hNull : ∀ value, encode value ≠ null)
    (value : Option α) : nullable decode (ofOption encode value) = some value := by
  cases value with
  | none => rfl
  | some value =>
    rw [ofOption, nullable, hDecode]
    · rfl
    · exact hNull value

theorem Fields.exists_of_withDefault {α : Type} {fields : Fields} {name : String}
    {default value : α} {decode : Json → Option α}
    (h : fields.withDefault name default decode = some value) :
    value = default ∨ ∃ json, decode json = some value := by
  rw [withDefault] at h
  split at h
  · exact .inl (Option.some.inj h).symm
  · exact .inr ⟨_, h⟩

theorem exists_of_mem_items? {α : Type} {decode : Json → Option α} {json : Json} {values : List α}
    (h : items? decode json = some values) {value : α} (hValue : value ∈ values) :
    ∃ item, decode item = some value := by
  rw [items?.eq_def] at h
  split at h
  · rename_i items
    induction items generalizing values with
    | nil =>
      cases h
      cases hValue
    | cons item items ih =>
      rw [List.mapM_cons] at h
      obtain ⟨first, hFirst, hRest⟩ := Option.bind_eq_some_iff.mp h
      obtain ⟨others, hOthers, hSame⟩ := Option.bind_eq_some_iff.mp hRest
      cases hSame
      rcases List.mem_cons.mp hValue with rfl | hValue
      · exact ⟨item, hFirst⟩
      · exact ih hValue hOthers
  · cases h

end Json

theorem Kind.decode_toJson (limit : Nat) (kind : Kind) :
    Kind.decode limit kind.toJson = some kind := by
  cases limit <;> exact named?_name kind

theorem Binding.decode_toJson (limit : Nat) (binding : Binding) :
    Binding.decode (limit + 1) binding.toJson = some binding := by
  obtain ⟨kind, name, typeReference, comment⟩ := binding
  have hString (text : String) : Json.string? (.string text) = some text := rfl
  have hComment : Json.nullable Json.string? (Json.ofOption Json.string comment) = some comment :=
    Json.nullable_ofOption hString (fun _ => Json.noConfusion) comment
  simp [Binding.decode, toJson, Json.record?, Json.Fields.of?, Json.Fields.required,
    Json.Fields.withDefault, Json.Fields.get?, Kind.decode_toJson, Json.string?, hComment]

namespace Document

variable {document : Document} {record : Record} {below : Forest Record} {limit : Nat} {json : Json}
  {decodeChildren : Json → Option (List Document)}

/-! ## Printed documents -/

theorem decodeNode_nodeToJson (record : Record) (children : List Json) :
    decodeNode decodeChildren (limit + 1) (nodeToJson record children) =
      (decodeChildren (.array children)).map fun trees => ⟨record, .ofTrees trees⟩ := by
  obtain ⟨label, capabilities, binding, readOnly⟩ := record
  have hBinding : Json.nullable (Binding.decode (limit + 1))
      (Json.ofOption Binding.toJson binding) = some binding :=
    Json.nullable_ofOption (Binding.decode_toJson limit) (fun _ => Json.noConfusion) binding
  simp [decodeNode, nodeToJson, Json.Fields.of?, Json.Fields.required, Json.Fields.withDefault,
    Json.Fields.get?, Json.string?, Json.bool?, hBinding, Json.strings?_strings]
  rw [Option.map_eq_bind]
  rfl

/-- The list of capabilities is a container of its own. -/
theorem decodeNode_zero (record : Record) (children : List Json) :
    decodeNode decodeChildren 0 (nodeToJson record children) = none := by
  simp [decodeNode, nodeToJson, Json.Fields.of?, Json.Fields.required, Json.Fields.withDefault,
    Json.Fields.get?, Json.string?, Json.strings?, Json.listOf]

theorem decode_nodeToJson (record : Record)
    (h : ∀ limit, (forestToJson below).mapM (decode limit) =
      if 2 * below.levels ≤ limit then some below.trees else none) :
    decode limit (nodeToJson record (forestToJson below)) =
      if 2 * (below.levels + 1) ≤ limit then some ⟨record, below⟩ else none := by
  match limit with
  | 0 => rw [decode, if_neg (by omega)]
  | 1 => rw [decode, decodeNode_zero, if_neg (by omega)]
  | limit + 2 =>
    rw [decode, decodeNode_nodeToJson, Json.items?, h]
    by_cases hLevels : 2 * below.levels ≤ limit
    · rw [if_pos hLevels, if_pos (by omega), Option.map_some, Forest.ofTrees_trees]
    · rw [if_neg hLevels, if_neg (by omega), Option.map_none]

theorem mapM_decode_forestToJson (limit : Nat) (forest : Forest Record) :
    (forestToJson forest).mapM (decode limit) =
      if 2 * forest.levels ≤ limit then some forest.trees else none := by
  induction forest generalizing limit with
  | nil => rw [forestToJson, Forest.levels, if_pos (by omega)]; rfl
  | cons record below rest hBelow hRest =>
    rw [forestToJson, List.mapM_cons, decode_nodeToJson record hBelow, hRest, Forest.levels,
      Forest.trees]
    by_cases hFirst : 2 * (below.levels + 1) ≤ limit
    · by_cases hOthers : 2 * rest.levels ≤ limit
      · rw [if_pos hFirst, if_pos hOthers, if_pos (by omega)]
        rfl
      · rw [if_pos hFirst, if_neg hOthers, if_neg (by omega)]
        rfl
    · have hBoth : ¬2 * max (below.levels + 1) rest.levels ≤ limit := by omega
      rw [if_neg hFirst, if_neg hBoth]
      rfl

theorem decode_toJson (limit : Nat) (document : Document) :
    decode limit document.toJson = if 2 * document.levels ≤ limit then some document else none :=
  decode_nodeToJson document.root fun limit => mapM_decode_forestToJson limit document.children

theorem parse?_print (document : Document) :
    parse? document.print = if document.levels ≤ 63 then some document else none := by
  rw [parse?, read?_print, Option.bind_some, decode_toJson, nestingLimit]
  by_cases h : document.levels ≤ 63
  · rw [if_pos h, if_pos (by omega)]
  · rw [if_neg h, if_neg (by omega)]

/-! ## Any text -/

theorem exists_trees_of_decodeNode (h : decodeNode decodeChildren limit json = some document) :
    ∃ trees, document.children = .ofTrees trees ∧
      (trees = [] ∨ ∃ json, decodeChildren json = some trees) := by
  simp only [decodeNode, Option.bind_eq_bind, Option.bind_eq_some_iff] at h
  obtain ⟨_, _, _, _, _, _, _, _, _, _, trees, hTrees, hDocument⟩ := h
  cases hDocument
  exact ⟨trees, rfl, Json.Fields.exists_of_withDefault hTrees⟩

theorem levels_le_of_decode (h : decode limit json = some document) :
    2 * document.levels ≤ limit + 1 := by
  -- A level takes two containers, but the last list may be missing.
  induction limit using Nat.strongRecOn generalizing json document with
  | ind limit ih =>
    match limit with
    | 0 =>
      rw [decode] at h
      cases h
    | 1 =>
      rw [decode] at h
      obtain ⟨trees, hChildren, rfl | ⟨_, hTrees⟩⟩ := exists_trees_of_decodeNode h
      · rw [Tree.levels, hChildren]
        exact Nat.le_refl 2
      · cases hTrees
    | limit + 2 =>
      rw [decode] at h
      obtain ⟨trees, hChildren, hTrees⟩ := exists_trees_of_decodeNode h
      have hLevels : ∀ tree ∈ trees, tree.levels ≤ (limit + 1) / 2 := by
        intro tree hTree
        rcases hTrees with rfl | ⟨items, hItems⟩
        · cases hTree
        · obtain ⟨item, hItem⟩ := Json.exists_of_mem_items? hItems hTree
          have := ih limit (by omega) hItem
          omega
      have := Tree.levels_ofTrees_le hLevels
      rw [Tree.levels, hChildren]
      omega

theorem levels_le_of_parse? {text : String} (h : parse? text = some document) :
    document.levels ≤ 64 := by
  obtain ⟨json, _, hDecode⟩ := Option.bind_eq_some_iff.mp h
  have := levels_le_of_decode hDecode
  rw [nestingLimit] at this
  omega

/-- What a store writes for a document is read as this document exactly if it has no more than 63
levels of nodes, whatever its texts are. -/
theorem exists_reloaded_iff (document : Document) :
    (∃ read, parse? document.print = some read ∧
      (Hierarchy.mk read 0).documentAt? TemplateFile.root = some document) ↔
        document.levels ≤ 63 := by
  rw [parse?_print]
  constructor
  · rintro ⟨read, hRead, _⟩
    by_contra hLevels
    rw [if_neg hLevels] at hRead
    cases hRead
  · intro hLevels
    exact ⟨document, if_pos hLevels, Hierarchy.documentAt?_zero ⟨document, 0⟩⟩

end Document

end TemplateBinding
