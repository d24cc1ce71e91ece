import TemplateBinding.Proofs.SuggestedNames

/-!
# Suggested types

A finding about a missing type suggests one.  It is the type that a batch would give to such a node,
and it is accepted, unless the primary capability of the node is blank: a batch passes over a blank
capability, and the suggestion does not.
-/
namespace TemplateBinding
set_option autoImplicit false

open BindingTree (Slot)

def Entry.withType (typeReference : String) (entry : Entry) : Entry :=
  { entry with binding := entry.binding.map fun binding => { binding with typeReference } }

/-! ## Types that a batch gives -/

/-- The primary capability is nothing but white space. -/
def Config.HasBlankPrimary (config : Config) (capabilities : List String) : Prop :=
  ∃ capability, config.primaryCapability capabilities = some capability ∧
    Text.isBlank capability = true

namespace Batch

variable {config : Config} {options : Options} {hierarchy : Hierarchy} {node : NodeId}
  {capabilities : List String} {given : Option String}

/-- A node without a binding, which is to get one of a nameable kind. -/
structure AsksForType (config : Config) (options : Options) (hierarchy : Hierarchy) (node : NodeId)
    (capabilities : List String) : Prop where
  unbound : hierarchy.binding node = none
  exposes : hierarchy.capabilities node = capabilities
  nameable : (options.defaultKind.getD (config.inferKind capabilities)).nameable = true

/-- What nodes with the capabilities get as their type.  If there is none they fail for that reason;
otherwise a node that may be edited gets it. -/
structure GivesType (config : Config) (capabilities : List String) (given : Option String) :
    Prop where
  fails : given = none → ∀ options hierarchy node,
    AsksForType config options hierarchy node capabilities →
      visit config options hierarchy node = (.failed,
        "'" ++ hierarchy.label node ++ "' has no capability to use as type reference", hierarchy)
  assigns : ∀ typeReference, given = some typeReference → ∀ options hierarchy node,
    AsksForType config options hierarchy node capabilities →
      ∀ record, hierarchy.writable node = .ok record →
        (visit config options hierarchy node).1 = .annotated ∧
          ((visit config options hierarchy node).2.2.binding node).map
            (fun binding => binding.typeReference) = some typeReference

theorem map_typeReference_bindingFor?
    (h : AsksForType config options hierarchy node capabilities) (label : String) :
    (bindingFor? config options label capabilities).map (fun binding => binding.typeReference) =
      typeFor? config capabilities := by
  simp only [bindingFor?, h.nameable, if_true, Option.map_map]
  exact Option.map_id'

theorem binding_modify_withBinding {record : Record} (binding : Binding)
    (h : hierarchy.writable node = .ok record) :
    (hierarchy.modify node fun record => { record with binding := some binding }).binding node =
      some binding := by
  obtain ⟨place, hPlace, _, _⟩ := Hierarchy.writable_eq_ok_iff.mp h
  rw [Hierarchy.modify_eq_modifyAll, binding_modifyAll, hPlace, Option.bind_some,
    if_pos (List.mem_singleton_self node)]

theorem givesType_typeFor? (config : Config) (capabilities : List String) :
    GivesType config capabilities (typeFor? config capabilities) where
  fails hNone options hierarchy node hAsks := by
    have hBinding := map_typeReference_bindingFor? hAsks (hierarchy.label node)
    rw [hNone, Option.map_eq_none_iff] at hBinding
    rw [visit, hAsks.unbound, hAsks.exposes]
    simp only [hBinding]
  assigns typeReference hSome options hierarchy node hAsks record hWritable := by
    have hBinding := map_typeReference_bindingFor? hAsks (hierarchy.label node)
    rw [hSome, Option.map_eq_some_iff] at hBinding
    obtain ⟨binding, hGiven, rfl⟩ := hBinding
    have hVisit : visit config options hierarchy node = (.annotated, binding.name,
        hierarchy.modify node fun record => { record with binding := some binding }) := by
      rw [visit, hAsks.unbound, hAsks.exposes]
      simp only [hGiven, Hierarchy.setBinding, hWritable]
    rw [hVisit, binding_modify_withBinding binding hWritable]
    exact ⟨rfl, rfl⟩

/-- A single node with the capabilities tells which type is given. -/
theorem givesType_iff :
    GivesType config capabilities given ↔ given = typeFor? config capabilities := by
  constructor
  · intro h
    let options : Options := ⟨false, some .member, false⟩
    let sample : Hierarchy := ⟨⟨{ label := "", capabilities }, .nil⟩, 0⟩
    have hAsks : AsksForType config options sample 0 capabilities := ⟨rfl, rfl, rfl⟩
    have hTypes := givesType_typeFor? config capabilities
    cases hGiven : given with
    | none =>
      have hFails := h.fails hGiven options sample 0 hAsks
      cases hType : typeFor? config capabilities with
      | none => rfl
      | some typeReference =>
        have hAnnotated := (hTypes.assigns _ hType options sample 0 hAsks _ rfl).1
        rw [hFails] at hAnnotated
        cases hAnnotated
    | some typeReference =>
      obtain ⟨hAnnotated, hAssigned⟩ := h.assigns _ hGiven options sample 0 hAsks _ rfl
      cases hType : typeFor? config capabilities with
      | none =>
        rw [hTypes.fails hType options sample 0 hAsks] at hAnnotated
        cases hAnnotated
      | some other =>
        exact hAssigned.symm.trans (hTypes.assigns _ hType options sample 0 hAsks _ rfl).2
  · rintro rfl
    exact givesType_typeFor? config capabilities

/-- Without the look at blank capabilities the type is the same unless the primary one is blank. -/
theorem or_fallbackType?_eq_typeFor?_iff :
    (config.primaryCapability capabilities).or config.fallbackType? =
      typeFor? config capabilities ↔ ¬config.HasBlankPrimary capabilities := by
  rw [typeFor?, Config.HasBlankPrimary]
  cases config.primaryCapability capabilities with
  | none => simp
  | some capability =>
    cases hBlank : Text.isBlank capability with
    | false => simp [Option.filter_some, hBlank]
    | true =>
      have hOther : some capability ≠ config.fallbackType? := by
        intro hSame
        rw [isBlank_of_fallbackType? hSame.symm] at hBlank
        cases hBlank
      simp [Option.filter_some, hBlank, hOther]

end Batch

namespace BindingTree

variable {config : Config} {tree : BindingTree} {slot : Slot} {binding : Binding}
  {located : Located}

def withType (tree : BindingTree) (index : Nat) (typeReference : String) : BindingTree :=
  tree.modify (Entry.withType typeReference) index

/-! ## Suggested types -/

theorem filter_isAbout_typeRules (config : Config) (hBinding : slot.binding = some binding)
    (hKind : binding.kind.nameable = true) :
    (identifierFindingsAt config slot).filter (Located.isAbout slot.index typeRules) =
        typeFindings config slot binding ∧
      (identifierFindingsAt config slot).filter (fun one => !one.isAbout slot.index typeRules) =
        nameFindings config slot binding := by
  obtain ⟨hNames, hTypes⟩ := filter_isAbout_nameRules config hBinding hKind
  have hOther : ∀ one ∈ identifierFindingsAt config slot,
      one.isAbout slot.index typeRules = !one.isAbout slot.index nameRules := by
    rw [identifierFindingsAt_of_binding hBinding hKind]
    intro one hOne
    rcases List.mem_append.mp hOne with h | h
    · obtain ⟨hName, hType⟩ := isAbout_of_mem_nameFindings h
      rw [hName, hType, Bool.not_true]
    · obtain ⟨hType, hName⟩ := isAbout_of_mem_typeFindings h
      rw [hName, hType, Bool.not_false]
  rw [← hNames, ← hTypes]
  constructor
  · exact List.filter_congr hOther
  · exact List.filter_congr fun one hOne => by rw [hOther one hOne, Bool.not_not]

theorem Slot.binding_lift_withType (typeReference : String) (h : slot.binding = some binding) :
    (slot.lift (Entry.withType typeReference)).binding = some { binding with typeReference } := by
  rw [Slot.lift, Entry.withType, h, Option.map_some]

theorem isBlank_iff_hasBlankPrimary {capabilities : List String} {typeReference : String}
    (h : (config.primaryCapability capabilities).or config.fallbackType? = some typeReference) :
    Text.isBlank typeReference = true ↔ config.HasBlankPrimary capabilities := by
  rw [Config.HasBlankPrimary]
  cases hPrimary : config.primaryCapability capabilities with
  | none =>
    rw [hPrimary, Option.none_or] at h
    simp [Batch.isBlank_of_fallbackType? h]
  | some capability =>
    rw [hPrimary, Option.some_or] at h
    cases h
    simp

/-- The suggested type is the one that a batch gives unless the primary capability is blank, and the
same decides whether it is accepted. -/
theorem identifierFindings_withType_suggested (config : Config) (tree : BindingTree)
    (hLocated : located ∈ tree.identifierFindings config)
    (hRule : located.issue.rule = .missingTypeReference) :
    ∃ slot ∈ tree.slots.values, slot.index = located.index ∧
      (Batch.GivesType config slot.capabilities located.suggestedFix ↔
        ¬config.HasBlankPrimary slot.capabilities) ∧
      ∀ typeReference, located.suggestedFix = some typeReference →
        let after := (tree.withType located.index typeReference).identifierFindings config
        (after.filter (Located.isAbout located.index typeRules) = [] ↔
          ¬config.HasBlankPrimary slot.capabilities) ∧
        after.filter (fun one => !one.isAbout located.index typeRules) =
          (tree.identifierFindings config).filter
            fun one => !one.isAbout located.index typeRules := by
  obtain ⟨slot, hSlot, binding, hBinding, hKind, ⟨_, hName⟩ | ⟨hType, _⟩⟩ :=
    exists_slot_of_mem_identifierFindings hLocated
  · rw [hRule] at hName
    exact absurd hName (by decide)
  · obtain ⟨_, rfl⟩ := mem_typeFindings_iff.mp hType
    refine ⟨slot, hSlot, rfl, Batch.givesType_iff.trans Batch.or_fallbackType?_eq_typeFor?_iff, ?_⟩
    intro typeReference hFix
    have hTyped := Slot.binding_lift_withType typeReference hBinding
    obtain ⟨_, hNames⟩ := filter_isAbout_typeRules config hBinding hKind
    obtain ⟨hTypes, hNamesAfter⟩ := filter_isAbout_typeRules config hTyped hKind
    constructor
    · have hAccepted : typeFindings config (slot.lift (Entry.withType typeReference))
          { binding with typeReference } = [] ↔ Text.isBlank typeReference = false :=
        typeFindings_eq_nil_iff
      rw [← isBlank_iff_hasBlankPrimary hFix, Bool.not_eq_true, ← hAccepted, ← hTypes]
      exact Eq.congr_left (filter_isAbout_modify _ typeRules hSlot)
    · exact filter_not_isAbout_modify hSlot (hNamesAfter.trans hNames.symm)

/-- Three elements without a type: an image, one with a blank capability and one without any. -/
def untypedRows : Hierarchy where
  document := ⟨{ label := "Hud" }, .ofTrees [
    ⟨{ label := "Icon", capabilities := ["Frame", "Image"],
       binding := some { kind := .element, name := "Icon" } }, .nil⟩,
    ⟨{ label := "Gap", capabilities := [" "],
       binding := some { kind := .element, name := "Gap", typeReference := " " } }, .nil⟩,
    ⟨{ label := "Score", binding := some { kind := .element, name := "Score" } }, .nil⟩]⟩

theorem identifierFindings_withType_suggested_untypedRows :
    let tree := build untypedRows 0
    let icon : Located :=
      ⟨1, 1, "Hud/Icon", .missingTypeReference .element "Icon", some "Image"⟩
    let gap : Located := ⟨2, 2, "Hud/Gap", .missingTypeReference .element "Gap", some " "⟩
    let findings := tree.identifierFindings {}
    let typed := (tree.withType 1 "Image").identifierFindings {}
    let blank := (tree.withType 2 " ").identifierFindings {}
    icon ∈ findings ∧ gap ∈ findings ∧
      Batch.GivesType {} ["Frame", "Image"] (some "Image") ∧
      ¬Batch.GivesType {} [" "] (some " ") ∧
      typed.filter (Located.isAbout 1 typeRules) = [] ∧
      blank.filter (Located.isAbout 2 typeRules) ≠ [] := by
  intro tree icon gap findings typed blank
  have hIcon : icon ∈ findings := by decide +kernel
  have hGap : gap ∈ findings := by decide +kernel
  have hCapabilities : ∀ slot ∈ tree.slots.values,
      (slot.index = 1 → slot.capabilities = ["Frame", "Image"]) ∧
        (slot.index = 2 → slot.capabilities = [" "]) := by decide +kernel
  obtain ⟨image, hImage, hFirst, hGiven, hTyped⟩ :=
    identifierFindings_withType_suggested {} tree hIcon rfl
  obtain ⟨space, hSpace, hSecond, hRefused, hKept⟩ :=
    identifierFindings_withType_suggested {} tree hGap rfl
  rw [(hCapabilities image hImage).1 hFirst] at hGiven hTyped
  rw [(hCapabilities space hSpace).2 hSecond] at hRefused hKept
  have hSound : ¬Config.HasBlankPrimary {} ["Frame", "Image"] := by
    rintro ⟨capability, hPrimary, hBlank⟩
    cases hPrimary.symm.trans (by decide +kernel : _ = some "Image")
    exact absurd hBlank (by decide)
  have hBlank : Config.HasBlankPrimary {} [" "] := ⟨" ", by decide +kernel, by decide⟩
  exact ⟨hIcon, hGap, hGiven.mpr hSound, fun h => hRefused.mp h hBlank,
    (hTyped "Image" rfl).1.mpr hSound, fun h => (hKept " " rfl).1.mp h hBlank⟩

/-- A blank capability is suggested as a type, which no batch gives and no check accepts. -/
theorem not_forall_suggested_type_given :
    ¬ ∀ (config : Config) (tree : BindingTree) (slot : Slot) (located : Located),
      slot ∈ tree.slots.values → located ∈ tree.identifierFindings config →
      located.index = slot.index → located.issue.rule = .missingTypeReference →
      Batch.GivesType config slot.capabilities located.suggestedFix ∧
        ∀ typeReference, located.suggestedFix = some typeReference →
          ((tree.withType located.index typeReference).identifierFindings config).filter
            (Located.isAbout located.index typeRules) = [] := by
  intro h
  let gap : Located := ⟨2, 2, "Hud/Gap", .missingTypeReference .element "Gap", some " "⟩
  have hGap : gap ∈ (build untypedRows 0).identifierFindings {} := by decide +kernel
  obtain ⟨slot, hSlot, hIndex⟩ : ∃ slot ∈ (build untypedRows 0).slots.values, 2 = slot.index := by
    decide +kernel
  obtain ⟨_, hAccepted⟩ := h {} _ slot gap hSlot hGap hIndex rfl
  exact absurd (hAccepted " " rfl) (by decide +kernel)

end BindingTree

end TemplateBinding
