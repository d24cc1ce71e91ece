import TemplateBinding.Proofs.BatchAccounting
import TemplateBinding.Proofs.ErrorFree
import TemplateBinding.Proofs.NameSuggestion

/-!
# Bindings that a batch gives

A batch takes the name of a binding from a suggestion, and its type from a capability or from the
fallback.  With the default names and no further reserved words the name is legal and the type is
not blank, so the checks of names and types have nothing to say about a node that was annotated.
-/
namespace TemplateBinding
set_option autoImplicit false

open BindingTree (Slot)

/-- Suggestions are made with the default prefixes and the default fallback, and only keywords are
reserved. -/
structure Config.UsesDefaultNames (config : Config) : Prop where
  namePrefixes : config.namePrefixes = ({} : Config).namePrefixes
  fallbackName : config.fallbackName = ({} : Config).fallbackName
  extraReservedWords : config.extraReservedWords = []

theorem Config.UsesDefaultNames.hasLegalNames {config : Config} (h : config.UsesDefaultNames) :
    config.HasLegalNames := by
  constructor
  · rw [h.fallbackName]
    decide
  · rw [h.namePrefixes]
    decide

namespace Batch

variable {config : Config} {options : Options} {hierarchy : Hierarchy} {root node : NodeId}
  {label typeReference : String} {capabilities : List String} {binding : Binding}

/-! ## Types -/

theorem isBlank_of_fallbackType? (h : config.fallbackType? = some typeReference) :
    Text.isBlank typeReference = false := by
  rw [Config.fallbackType?] at h
  split at h
  · cases h
  · rename_i hSome
    rw [← Option.some.inj h, Text.isBlank_trim, Bool.eq_false_iff.mpr hSome]

theorem isBlank_of_typeFor? (h : typeFor? config capabilities = some typeReference) :
    Text.isBlank typeReference = false := by
  rw [typeFor?, Option.or_eq_some_iff] at h
  rcases h with hCapability | ⟨_, hFallback⟩
  · have hSome := (Option.filter_eq_some_iff.mp hCapability).2
    rwa [Bool.not_eq_true'] at hSome
  · exact isBlank_of_fallbackType? hFallback

/-! ## Bindings -/

theorem isReserved_suggest (h : config.UsesDefaultNames) (capability : Option String)
    (label : String) :
    Identifier.isReserved config (Identifier.suggest config capability label) = false := by
  have hKeyword := Identifier.suggest_not_mem_keywords h.hasLegalNames capability label
  simp [Identifier.isReserved, h.extraReservedWords, hKeyword]

theorem isEmpty_of_isLegal {name : String} (h : Identifier.isLegal name = true) :
    name.isEmpty = false := by
  rw [Bool.eq_false_iff, ne_eq, String.isEmpty_iff]
  rintro rfl
  exact absurd h (by decide)

theorem sound_of_bindingFor? (hConfig : config.UsesDefaultNames)
    (hSuggest : options.autoSuggestName = true)
    (h : bindingFor? config options label capabilities = some binding)
    (hLeaf : binding.kind ≠ .leaf) : binding.Sound config := by
  simp only [bindingFor?, hSuggest, if_true] at h
  split at h
  · obtain ⟨typeReference, hType, rfl⟩ := Option.map_eq_some_iff.mp h
    have hLegal := Identifier.isLegal_suggest hConfig.hasLegalNames
      (config.primaryCapability capabilities) label
    constructor
    · exact isEmpty_of_isLegal hLegal
    · exact isReserved_suggest hConfig _ label
    · exact hLegal
    · exact isBlank_of_typeFor? hType
  · rw [← Option.some.inj h] at hLeaf
    exact absurd rfl hLeaf

/-! ## Findings -/

theorem binding_of_mem_slots {slot : Slot}
    (hSlot : slot ∈ (BindingTree.build hierarchy root).slots.values)
    (hBound : slot.binding = some binding) : hierarchy.binding slot.node = some binding := by
  rw [← Tree.map_value_places] at hSlot
  obtain ⟨place, hPlace, rfl⟩ := List.mem_map.mp hSlot
  have hFound := BindingTree.find?_of_mem_places hPlace (by rw [hBound]; rfl)
  rw [BindingTree.binding_of_find? hFound, hBound]

/-- Names and types are only reported for nodes with an unsound binding. -/
theorem target_ne_of_mem_identifierFindings {located : Located}
    (hSound : ∀ binding, hierarchy.binding node = some binding → binding.kind ≠ .leaf →
      binding.Sound config)
    (h : located ∈ (BindingTree.build hierarchy root).identifierFindings config) :
    located.target ≠ node := by
  intro hTarget
  obtain ⟨slot, hSlot, h⟩ := List.mem_flatMap.mp h
  obtain ⟨issue, fix, rfl⟩ := BindingTree.exists_ofSlot_of_mem_identifierFindingsAt h
  have hNode : slot.node = node := hTarget
  have hNone : BindingTree.identifierFindingsAt config slot = [] := by
    apply BindingTree.identifierFindingsAt_eq_nil_iff.mpr
    intro binding hBinding hLeaf
    exact hSound binding (hNode ▸ binding_of_mem_slots hSlot hBinding) hLeaf
  rw [hNone] at h
  cases h

/-- The rules about the name and the type of a single binding. -/
def identifierRules : List Rule :=
  [.emptyName, .reservedWord, .invalidIdentifier, .missingTypeReference]

theorem mem_identifierFindings_of_ruleId {tree : BindingTree} {located : Located}
    (h : located ∈ tree.locatedFindings config)
    (hRule : ∃ rule ∈ identifierRules, located.finding.ruleId = rule.id) :
    located ∈ tree.identifierFindings config := by
  obtain ⟨rule, hRule, hId⟩ := hRule
  have hOther {other : Rule} (hFound : located.finding.ruleId = other.id) :
      other.id ∈ identifierRules.map Rule.id := by
    rw [← hFound, hId]
    exact List.mem_map_of_mem hRule
  simp only [BindingTree.locatedFindings, List.mem_append] at h
  rcases h with ((h | h) | h) | h
  · exact h
  · exact absurd (hOther (BindingTree.ruleId_of_mem_conflictFindings h)) (by decide)
  · exact absurd (hOther (BindingTree.ruleId_of_mem_hierarchyFindings h)) (by decide)
  · exact absurd (hOther (BindingTree.ruleId_of_mem_shadowFindings h)) (by decide)

/-- Whatever tree is built and validated after a batch, the names and types of the nodes that the
batch annotated are in order. -/
theorem annotate_passes_validation (hConfig : config.UsesDefaultNames)
    (hSuggest : options.autoSuggestName = true) (hierarchy : Hierarchy) (nodes : List NodeId)
    (root : NodeId) :
    let run := annotate config options hierarchy nodes
    ∀ item ∈ run.1.annotated,
      ∀ finding ∈ ((BindingTree.build run.2 root).validate config).1, finding.target = item.node →
        ∀ rule ∈ identifierRules, finding.ruleId ≠ rule.id := by
  intro run item hItem finding hFinding hTarget rule hRule hId
  obtain ⟨_, binding, hGiven, _, hAfter⟩ := granted_of_mem_annotated hItem
  rw [BindingTree.findings_validate] at hFinding
  obtain ⟨located, hLocated, rfl⟩ := List.mem_map.mp hFinding
  have hIdentifier := mem_identifierFindings_of_ruleId hLocated ⟨rule, hRule, hId⟩
  refine target_ne_of_mem_identifierFindings ?_ hIdentifier hTarget
  intro other hOther hLeaf
  have hSame : binding = other := Option.some.inj (hAfter.symm.trans hOther)
  exact sound_of_bindingFor? hConfig hSuggest (hSame ▸ hGiven) hLeaf

/-- Two sliders of one name, a label that is a keyword and a capability that is blank. -/
def unboundPanel : Hierarchy where
  document := ⟨{ label := "Hud" }, .ofTrees [
    ⟨{ label := "class", capabilities := [" "] }, .nil⟩,
    ⟨{ label := "2 %", capabilities := ["Slider"] }, .nil⟩,
    ⟨{ label := "-2-", capabilities := ["slider"] }, .nil⟩]⟩

def sliderElements : Config where
  fallbackTypeReference := " View "
  kindByCapability := [("slider", .element)]

/-- What is left to report is that two elements share their name. -/
theorem annotate_passes_validation_unboundPanel :
    let run := annotate sliderElements ⟨true, none, true⟩ unboundPanel [0]
    let findings := ((BindingTree.build run.2 0).validate sliderElements).1
    sliderElements.UsesDefaultNames ∧
      (run.1.annotated.map fun item => (item.node, item.detail)) =
        [(0, "Hud"), (1, "Class"), (2, "Sld_2"), (3, "Sld_2")] ∧
      (findings.map fun finding => (finding.target, finding.ruleId)) =
        [(2, "NAME_CONFLICT"), (3, "NAME_CONFLICT")] ∧
      ∀ item ∈ run.1.annotated, ∀ finding ∈ findings, finding.target = item.node →
        ∀ rule ∈ identifierRules, finding.ruleId ≠ rule.id := by
  intro run findings
  have hConfig : sliderElements.UsesDefaultNames := ⟨rfl, rfl, rfl⟩
  have hAnnotated : (run.1.annotated.map fun item => (item.node, item.detail)) =
      [(0, "Hud"), (1, "Class"), (2, "Sld_2"), (3, "Sld_2")] := by decide +kernel
  have hFindings : (findings.map fun finding => (finding.target, finding.ruleId)) =
      [(2, "NAME_CONFLICT"), (3, "NAME_CONFLICT")] := by decide +kernel
  exact ⟨hConfig, hAnnotated, hFindings, annotate_passes_validation hConfig rfl unboundPanel [0] 0⟩

end Batch

end TemplateBinding
