import TemplateBinding.Proofs.DeclarationGate
import TemplateBinding.Proofs.Projection
import TemplateBinding.Proofs.SharedFiles

/-!
# Files of the declared types

With the default path templates the files of a declared type are found by its directory and its
name, and names are unique inside one scope only.  So two declarations of a tree without errors
share a file exactly when their directories are the same and one is called like the other, or like
the other's companion.
-/
namespace TemplateBinding
set_option autoImplicit false

open BindingTree (Slot ErrorFree)

/-! ## Directories -/

namespace Artifact

variable {config : Config} {template : String} {entry other : Entry} {binding : Binding}

theorem renderList_components (config : Config) (template name : String) :
    renderList config template name "Components".toList = "Components".toList :=
  renderList_of_not_mem (by decide)

/-- No type with a name of its own lies deeper than the template's type. -/
theorem count_directory_le (config : Config) (template : String) (hOther : other.binding = none)
    (hBinding : entry.binding = some binding) (hSlash : '/' ∉ binding.name.toList) :
    (directory config template entry).toList.count '/' ≤
      (directory config template other).toList.count '/' := by
  have hName : binding.name.toList.count '/' ≤ template.toList.count '/' := by
    rw [List.count_eq_zero_of_not_mem hSlash]
    exact Nat.zero_le _
  have hRoot : (directoryTemplate none).toList =
      rootPlaceholder.toList ++ '/' :: templatePlaceholder.toList := rfl
  have hPath (path : List Char) : (renderList config template binding.name path).count '/' ≤
      (renderList config template template path).count '/' := Text.count_replaceList_le hName
  rw [directory, directory, typeName, typeName, Entry.kind?, Entry.kind?, hOther, hBinding,
    Option.elim_none, Option.elim_some, Option.map_none, Option.map_some, toList_render,
    toList_render]
  cases binding.kind with
  | member | element | leaf => exact hPath (directoryTemplate none).toList
  | component =>
    have hComponent : (directoryTemplate (some .component)).toList =
        rootPlaceholder.toList ++ '/' :: "Components".toList := rfl
    have hCount : List.count '/' "Components".toList = 0 := by decide
    have hOutput := hPath rootPlaceholder.toList
    rw [hComponent, hRoot, renderList_append_cons _ _ (by decide),
      renderList_append_cons _ _ (by decide), renderList_components]
    simp only [List.count_append, List.count_cons_self, hCount]
    omega

theorem not_mem_last (hOther : other.binding = none) (hBinding : entry.binding = some binding)
    (hSlash : '/' ∉ binding.name.toList) {last suffix : List Char} (hSuffix : '/' ∉ suffix)
    (hLast : (base config template other).toList =
      (directory config template other).toList ++ '/' :: last)
    (h : (base config template other).toList = (base config template entry).toList ++ suffix) :
    '/' ∉ last := by
  have hCount := count_directory_le config template hOther hBinding hSlash
  have hSplit := congrArg (List.count '/') (hLast.symm.trans h)
  rw [toList_base_of_binding config template hBinding] at hSplit
  simp only [List.count_append, List.count_cons_self, List.count_eq_zero_of_not_mem hSlash,
    List.count_eq_zero_of_not_mem hSuffix] at hSplit
  exact List.count_eq_zero.mp (by omega)

/-- Only the name can tell where a base ends, and names have neither slashes nor braces. -/
theorem base_eq_append_iff (hBinding : entry.binding = some binding)
    (hLegal : Identifier.isLegal binding.name = true)
    (hOther : ∀ named, other.binding = some named → Identifier.isLegal named.name = true)
    {suffix : String} (hSuffix : '/' ∉ suffix.toList ∧ '\x7b' ∉ suffix.toList) :
    base config template other = base config template entry ++ suffix ↔
      directory config template other = directory config template entry ∧
        typeName template other = binding.name ++ suffix := by
  have hSlash := Identifier.not_mem_of_isLegal hLegal (c := '/') (by decide)
  have hOutside {c : Char} (hChar : Identifier.continuesName c = false) (hIn : c ∉ suffix.toList) :
      c ∉ binding.name.toList ++ suffix.toList :=
    fun h => (List.mem_append.mp h).elim (Identifier.not_mem_of_isLegal hLegal hChar) hIn
  obtain ⟨last, hLast, hNoSlash, hName⟩ := exists_last config template other
  have hBase : (base config template entry ++ suffix).toList =
      (directory config template entry).toList ++
        '/' :: (binding.name.toList ++ suffix.toList) := by
    rw [String.toList_append, toList_base_of_binding config template hBinding, List.append_assoc,
      List.cons_append]
  constructor
  · intro h
    have hLastSlash : '/' ∉ last := by
      cases hNamed : other.binding with
      | some named =>
        refine hNoSlash ?_
        rw [typeName, hNamed]
        exact Identifier.not_mem_of_isLegal (hOther named hNamed) (by decide)
      | none =>
        refine not_mem_last hNamed hBinding hSlash hSuffix.1 hLast ?_
        rw [h, String.toList_append]
    rw [← String.toList_inj, hLast, hBase] at h
    obtain ⟨hDirectory, -, rfl⟩ :=
      Text.eq_of_append_cons_eq h hLastSlash (hOutside (by decide) hSuffix.1)
    have hBrace := hOutside (c := '\x7b') (by decide) hSuffix.2
    rw [← String.toList_inj, ← String.toList_inj, String.toList_append]
    exact ⟨hDirectory, (hName (.inl hBrace)).symm⟩
  · rintro ⟨hDirectory, hSame⟩
    have hBrace : '\x7b' ∉ (typeName template other).toList := by
      rw [hSame, String.toList_append]
      exact hOutside (by decide) hSuffix.2
    rw [← String.toList_inj, hLast, hBase, hDirectory, hName (.inr hBrace), hSame,
      String.toList_append]

theorem directoryTemplate_of_ne {kind : Option Kind} (h : kind ≠ some .component) :
    directoryTemplate kind = directoryTemplate none := by
  rw [directoryTemplate.eq_def]
  split
  · exact absurd rfl h
  · rfl

/-- Types of one name are in one directory unless just one of them is a component. -/
theorem directory_eq_iff (hName : typeName template entry = typeName template other) :
    directory config template entry = directory config template other ↔
      (entry.kind? = some .component ↔ other.kind? = some .component) ∨
        Text.replace namePlaceholder (typeName template entry) template = "Components" := by
  have hDistinct : render config template (typeName template entry) (directoryTemplate none) =
      render config template (typeName template entry) (directoryTemplate (some .component)) ↔
        Text.replace namePlaceholder (typeName template entry) template = "Components" := by
    have hRoot : (directoryTemplate none).toList =
        rootPlaceholder.toList ++ '/' :: templatePlaceholder.toList := rfl
    have hComponent : (directoryTemplate (some .component)).toList =
        rootPlaceholder.toList ++ '/' :: "Components".toList := rfl
    have hReplace : Text.replace namePlaceholder (typeName template entry) template =
        "Components" ↔ Text.replaceList namePlaceholder.toList
          (typeName template entry).toList template.toList = "Components".toList := by
      rw [← String.toList_inj, Text.replace, String.toList_ofList]
    rw [← String.toList_inj, toList_render, toList_render, hRoot, hComponent,
      renderList_append_cons _ _ (by decide), renderList_append_cons _ _ (by decide),
      renderList_template, renderList_components, hReplace, List.append_right_inj,
      List.cons_inj_right]
  rw [directory, directory, ← hName]
  by_cases hEntry : entry.kind? = some .component <;>
    by_cases hOther : other.kind? = some .component
  · simp [hEntry, hOther]
  · rw [hEntry, directoryTemplate_of_ne hOther, eq_comm, hDistinct]
    simp [hOther]
  · rw [hOther, directoryTemplate_of_ne hEntry, hDistinct]
    simp [hEntry]
  · rw [directoryTemplate_of_ne hEntry, directoryTemplate_of_ne hOther]
    simp [hEntry, hOther]

end Artifact

/-! ## Common files -/

namespace Artifact

/-- The two are the same, or one is the other followed by what companions end with. -/
def Alike (first second : String) : Prop :=
  first = second ∨ first = second ++ ".Designer" ∨ second = first ++ ".Designer"

instance (first second : String) : Decidable (Alike first second) :=
  inferInstanceAs (Decidable (first = second ∨ first = second ++ ".Designer" ∨
    second = first ++ ".Designer"))

theorem nodup_files_iff (first second : String) :
    ((filesOf first).both ++ (filesOf second).both).Nodup ↔ ¬Alike first second := by
  have hOwn (base : String) : base ≠ base ++ ".Designer" := by
    intro h
    have hEmpty := String.append_right_inj base |>.mp (String.append_empty.trans h)
    exact absurd hEmpty (by decide)
  rw [Alike]
  simp only [filesOf, ArtifactPair.both, List.cons_append, List.nil_append, List.nodup_cons,
    List.mem_cons, List.not_mem_nil, or_false, String.append_left_inj, List.nodup_nil, and_true,
    not_false_eq_true]
  have hFirst := hOwn first
  have hSecond := hOwn second
  tauto

variable {config : Config} {template : String} {entry other : Entry} {binding : Binding}

theorem alike_bases_iff (hBinding : entry.binding = some binding)
    (hLegal : Identifier.isLegal binding.name = true)
    (hOther : ∀ named, other.binding = some named → Identifier.isLegal named.name = true) :
    Alike (base config template other) (base config template entry) ↔
      directory config template other = directory config template entry ∧
        Alike (typeName template other) (typeName template entry) := by
  have hName : typeName template entry = binding.name := by rw [typeName, hBinding]; rfl
  have hSame : base config template other = base config template entry ++ "" ↔
      directory config template other = directory config template entry ∧
        typeName template other = binding.name ++ "" :=
    base_eq_append_iff hBinding hLegal hOther (by decide)
  have hCompanion : base config template other = base config template entry ++ ".Designer" ↔
      directory config template other = directory config template entry ∧
        typeName template other = binding.name ++ ".Designer" :=
    base_eq_append_iff hBinding hLegal hOther (by decide)
  have hApart := base_ne_append_designer config template hBinding hLegal
    (base config template other)
  have hDot : binding.name ≠ typeName template other ++ ".Designer" := by
    intro h
    have hOutside := Identifier.not_mem_of_isLegal hLegal (c := '.') (by decide)
    rw [h, String.toList_append] at hOutside
    exact hOutside (List.mem_append_right _ (by decide))
  rw [String.append_empty, String.append_empty] at hSame
  rw [Alike, Alike, hName, hSame, hCompanion, or_iff_left hApart, or_iff_left hDot, and_or_left]

end Artifact

/-! ## Declarations -/

namespace ScopeDeclaration

def files (scope : ScopeDeclaration) : List String := [scope.primaryPath, scope.companionPath]

/-- The directory of both files, for the default path templates. -/
def directory (config : Config) (template : String) (scope : ScopeDeclaration) : String :=
  Artifact.render config template scope.name (Artifact.directoryTemplate scope.kind)

/-- The declaration is that of an entry whose files have the default paths. -/
structure Describes (config : Config) (template : String) (entry : Entry)
    (scope : ScopeDeclaration) : Prop where
  name : scope.name = Artifact.typeName template entry
  kind : scope.kind = entry.kind?
  files : scope.files = (Artifact.filesOf (Artifact.base config template entry)).both

theorem Describes.directory {config : Config} {template : String} {entry : Entry}
    {scope : ScopeDeclaration} (h : scope.Describes config template entry) :
    scope.directory config template = Artifact.directory config template entry := by
  rw [ScopeDeclaration.directory, Artifact.directory, h.name, h.kind]

end ScopeDeclaration

namespace BindingTree

variable {config : Config} {hierarchy : Hierarchy} {root : NodeId} {place : Place Slot}

theorem sound_of_scope (h : ErrorFree config (build hierarchy root))
    (hPlace : place ∈ (build hierarchy root).scopes) {binding : Binding}
    (hBinding : place.value.binding = some binding) : binding.Sound config := by
  obtain ⟨hIn, hScope⟩ := mem_scopes_iff.mp hPlace
  refine identifierFindings_eq_nil_iff.mp (errorFree_iff.mp h).1 place.value
    (Tree.mem_values_of_mem_places hIn) binding hBinding fun hLeaf => ?_
  rw [Entry.isScope_of_binding hBinding, hLeaf] at hScope
  cases hScope

theorem displayName_of_scope (h : ErrorFree config (build hierarchy root))
    (hPlace : place ∈ (build hierarchy root).scopes) : place.value.displayName =
      Artifact.typeName (build hierarchy root).templateName place.value.toEntry := by
  obtain ⟨hIn, hScope⟩ := mem_scopes_iff.mp hPlace
  rw [Artifact.typeName]
  cases hBinding : place.value.binding with
  | none =>
    have hTop := eq_top_of_index_eq_zero hIn ((index_eq_zero_iff hIn).mpr hBinding)
    rw [Entry.displayName, Entry.name?, hBinding, Option.bind_none, hTop]
    rfl
  | some binding =>
    have hSound := sound_of_scope h hPlace hBinding
    have hLeaf : binding.kind ≠ .leaf := by
      intro hLeaf
      rw [Entry.isScope_of_binding hBinding, hLeaf] at hScope
      cases hScope
    rw [Entry.displayName, Entry.name?_of_binding hBinding hLeaf, Option.elim_some]
    exact if_neg (by simp [hSound.named])

theorem describes_of_ofPlace? (hTemplates : config.pathTemplates = {})
    (h : ErrorFree config (build hierarchy root)) (hPlace : place ∈ (build hierarchy root).scopes)
    {scope : ScopeDeclaration}
    (hScope : ScopeDeclaration.ofPlace? config (build hierarchy root).templateName place =
      some scope) :
    scope.Describes config (build hierarchy root).templateName place.value.toEntry := by
  have hPaths := Artifact.ofEntry?_of_default (build hierarchy root).templateName hTemplates
    (mem_scopes_iff.mp hPlace).2
  rw [ScopeDeclaration.ofPlace?, hPaths, Option.map_some, Option.some.injEq] at hScope
  subst hScope
  exact ⟨displayName_of_scope h hPlace, rfl, rfl⟩

theorem pairwise_scopes (tree : BindingTree) :
    tree.scopes.Pairwise fun first second => first.value.index < second.value.index := by
  have hIndices := map_index_slots tree
  rw [← Tree.map_value_places, List.map_map] at hIndices
  have hPlaces : tree.places.Pairwise fun first second => first.value.index < second.value.index :=
    List.pairwise_map.mp (hIndices ▸ List.pairwise_lt_range)
  exact hPlaces.sublist List.filter_sublist

/-- When two declarations have no file in common. -/
structure ApartUnlessAlike (config : Config) (template : String)
    (first second : ScopeDeclaration) : Prop where
  nodup_iff : (first.files ++ second.files).Nodup ↔
    ¬(first.directory config template = second.directory config template ∧
      Artifact.Alike first.name second.name)
  directory_iff : first.name = second.name →
    (first.directory config template = second.directory config template ↔
      (first.kind = some .component ↔ second.kind = some .component) ∨
        Text.replace Artifact.namePlaceholder first.name template = "Components")

/-- Only the first of two scopes can be the template itself, so the second one has a legal name. -/
theorem apartUnlessAlike_of_lt (h : ErrorFree config (build hierarchy root))
    {first second : Place Slot} (hFirst : first ∈ (build hierarchy root).scopes)
    (hSecond : second ∈ (build hierarchy root).scopes)
    (hLess : first.value.index < second.value.index) {left right : ScopeDeclaration}
    (hLeft : left.Describes config (build hierarchy root).templateName first.value.toEntry)
    (hRight : right.Describes config (build hierarchy root).templateName second.value.toEntry) :
    ApartUnlessAlike config (build hierarchy root).templateName left right := by
  have hBound := isSome_binding_of_index_ne_zero (mem_scopes_iff.mp hSecond).1
    (Nat.ne_zero_of_lt hLess)
  obtain ⟨binding, hBinding⟩ := Option.isSome_iff_exists.mp hBound
  constructor
  · rw [hLeft.files, hRight.files, Artifact.nodup_files_iff, hLeft.directory, hRight.directory,
      hLeft.name, hRight.name, Artifact.alike_bases_iff hBinding
        (sound_of_scope h hSecond hBinding).legal
        fun named hNamed => (sound_of_scope h hFirst hNamed).legal]
  · rw [hLeft.name, hRight.name, hLeft.directory, hRight.directory, hLeft.kind, hRight.kind]
    exact Artifact.directory_eq_iff

/-- Two declarations of a tree without errors share a file exactly when they are in one directory
and called alike. -/
theorem declared_files_apart (config : Config) (hierarchy : Hierarchy) (root : NodeId)
    (hTemplates : config.pathTemplates = {}) (h : ErrorFree config (build hierarchy root)) :
    let tree := build hierarchy root
    ∃ declarations, tree.declare config (tree.validate config).1 = .ok declarations ∧
      declarations.template = tree.templateName ∧
      declarations.scopes.Pairwise (ApartUnlessAlike config tree.templateName) := by
  intro tree
  refine ⟨_, declare_eq_ok_iff.mpr ⟨errorFree_iff_countP_eq_zero.mp h, rfl⟩, rfl, ?_⟩
  refine List.pairwise_filterMap.mpr ((pairwise_scopes tree).imp_of_mem ?_)
  intro first second hFirst hSecond hLess left hLeft right hRight
  exact apartUnlessAlike_of_lt h hFirst hSecond hLess
    (describes_of_ofPlace? hTemplates h hFirst hLeft)
    (describes_of_ofPlace? hTemplates h hSecond hRight)

theorem declared_files_apart_twinItems :
    let tree := build ⟨Conversion.twinItems, 0⟩ 0
    ErrorFree {} tree ∧ ∃ declarations,
      tree.declare {} (tree.validate {}).1 = .ok declarations ∧
        declarations.scopes.map (fun scope => scope.name) = ["Hud", "Left", "Item", "Right", "Item"] ∧
        declarations.scopes.Pairwise (ApartUnlessAlike {} "Hud") := by
  intro tree
  have hFree : ErrorFree {} tree := by decide +kernel
  obtain ⟨declarations, hDeclare, hTemplate, hApart⟩ :=
    declared_files_apart {} ⟨Conversion.twinItems, 0⟩ 0 rfl hFree
  obtain ⟨-, rfl⟩ := declare_eq_ok_iff.mp hDeclare
  exact ⟨hFree, _, hDeclare, by decide +kernel, hApart⟩

/-- The two items of `twinItems` are elements of one name, so their declarations share both
files. -/
theorem not_forall_declared_files_nodup :
    ¬ ∀ (config : Config) (hierarchy : Hierarchy) (root : NodeId) (declarations : Declarations),
      config.pathTemplates = {} → ErrorFree config (build hierarchy root) →
      (build hierarchy root).declare config ((build hierarchy root).validate config).1 =
        .ok declarations →
      declarations.scopes.Pairwise fun first second => (first.files ++ second.files).Nodup := by
  intro h
  have hFree : ErrorFree {} (build ⟨Conversion.twinItems, 0⟩ 0) := by decide +kernel
  have hApart := h {} ⟨Conversion.twinItems, 0⟩ 0 _ rfl hFree
    (declare_eq_ok_iff.mpr ⟨errorFree_iff_countP_eq_zero.mp hFree, rfl⟩)
  exact absurd hApart (by decide +kernel)

end BindingTree

end TemplateBinding
