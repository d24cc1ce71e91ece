import TemplateBinding.Proofs.BatchSoundness
import TemplateBinding.Proofs.NameConflicts

/-!
# Suggested names

A finding about the name of an entry suggests another one.  The name is legal and no keyword, so
once it is taken over only a further reserved word can be in its way.  What is said about the types,
and about other entries, does not depend on the name.
-/
namespace TemplateBinding
set_option autoImplicit false

open BindingTree (Slot)

def Entry.withName (name : String) (entry : Entry) : Entry :=
  { entry with binding := entry.binding.map fun binding => { binding with name } }

/-- The finding belongs to the entry at the index, and it is one of the rules that is broken. -/
def Located.isAbout (index : Nat) (rules : List Rule) (located : Located) : Bool :=
  located.index == index && rules.contains located.issue.rule

namespace BindingTree

variable {config : Config} {tree : BindingTree} {slot : Slot} {binding : Binding}
  {located : Located}

def withName (tree : BindingTree) (index : Nat) (name : String) : BindingTree :=
  tree.modify (Entry.withName name) index

def nameRules : List Rule := [.emptyName, .reservedWord, .invalidIdentifier]

def typeRules : List Rule := [.missingTypeReference]

/-! ## Findings of one entry -/

theorem rule_mem_nameRules {label source : String} {issue : Issue}
    (h : nameIssue? config label binding = some (issue, source)) : issue.rule ∈ nameRules := by
  rw [nameIssue?] at h
  split at h
  · cases h
    exact List.mem_cons_self
  · split at h
    · cases h
      exact List.mem_cons_of_mem _ List.mem_cons_self
    · split at h
      · cases h
        exact List.mem_cons_of_mem _ (List.mem_cons_of_mem _ List.mem_cons_self)
      · cases h

theorem exists_nameIssue?_of_mem_nameFindings (h : located ∈ nameFindings config slot binding) :
    ∃ issue source, nameIssue? config slot.label binding = some (issue, source) ∧
      located = .ofSlot slot issue
        (some (Identifier.suggest config (config.primaryCapability slot.capabilities) source)) := by
  rw [nameFindings] at h
  split at h
  · cases h
  · exact ⟨_, _, by assumption, List.mem_singleton.mp h⟩

theorem mem_typeFindings_iff :
    located ∈ typeFindings config slot binding ↔ Text.isBlank binding.typeReference = true ∧
      located = .ofSlot slot (.missingTypeReference binding.kind slot.label)
        ((config.primaryCapability slot.capabilities).or config.fallbackType?) := by
  rw [typeFindings]
  split
  · rename_i hBlank
    rw [List.mem_singleton, and_iff_right hBlank]
  · rename_i hTyped
    exact iff_of_false List.not_mem_nil fun h => hTyped h.1

theorem identifierFindingsAt_of_binding (hBinding : slot.binding = some binding)
    (hKind : binding.kind.nameable = true) :
    identifierFindingsAt config slot =
      nameFindings config slot binding ++ typeFindings config slot binding := by
  rw [identifierFindingsAt, hBinding]
  exact if_pos hKind

/-- A finding comes from an entry with a nameable kind, and from one of its two checks. -/
theorem exists_slot_of_mem_identifierFindings (h : located ∈ tree.identifierFindings config) :
    ∃ slot ∈ tree.slots.values, ∃ binding, slot.binding = some binding ∧
      binding.kind.nameable = true ∧
        (located ∈ nameFindings config slot binding ∧ located.issue.rule ∈ nameRules ∨
          located ∈ typeFindings config slot binding ∧ located.issue.rule ∈ typeRules) := by
  obtain ⟨slot, hSlot, h⟩ := List.mem_flatMap.mp h
  refine ⟨slot, hSlot, ?_⟩
  cases hBinding : slot.binding with
  | none =>
    rw [identifierFindingsAt, hBinding] at h
    cases h
  | some binding =>
    have hKind : binding.kind.nameable = true := by
      rw [identifierFindingsAt, hBinding] at h
      dsimp only at h
      split at h
      · assumption
      · cases h
    refine ⟨binding, rfl, hKind, ?_⟩
    rw [identifierFindingsAt_of_binding hBinding hKind, List.mem_append] at h
    rcases h with h | h
    · obtain ⟨issue, source, hIssue, rfl⟩ := exists_nameIssue?_of_mem_nameFindings h
      exact .inl ⟨h, rule_mem_nameRules hIssue⟩
    · obtain ⟨_, rfl⟩ := mem_typeFindings_iff.mp h
      exact .inr ⟨h, List.mem_cons_self⟩

theorem isAbout_of_mem_nameFindings (h : located ∈ nameFindings config slot binding) :
    located.isAbout slot.index nameRules = true ∧ located.isAbout slot.index typeRules = false := by
  have hApart : ∀ rule ∈ nameRules, typeRules.contains rule = false := by decide
  obtain ⟨issue, source, hIssue, rfl⟩ := exists_nameIssue?_of_mem_nameFindings h
  have hRule : issue.rule ∈ nameRules := rule_mem_nameRules hIssue
  exact ⟨Bool.and_eq_true_iff.mpr ⟨beq_self_eq_true slot.index, List.contains_iff_mem.mpr hRule⟩,
    Bool.and_eq_false_imp.mpr fun _ => hApart issue.rule hRule⟩

theorem isAbout_of_mem_typeFindings (h : located ∈ typeFindings config slot binding) :
    located.isAbout slot.index typeRules = true ∧ located.isAbout slot.index nameRules = false := by
  obtain ⟨_, rfl⟩ := mem_typeFindings_iff.mp h
  exact ⟨Bool.and_eq_true_iff.mpr ⟨beq_self_eq_true slot.index, rfl⟩, Bool.and_false _⟩

theorem filter_append_of_forall {α : Type} {p : α → Bool} {first second : List α}
    (hFirst : ∀ a ∈ first, p a = true) (hSecond : ∀ a ∈ second, p a = false) :
    (first ++ second).filter p = first ∧ (first ++ second).filter (fun a => !p a) = second := by
  rw [List.filter_append, List.filter_append, List.filter_eq_self.mpr hFirst,
    List.filter_eq_nil_iff.mpr fun a ha => by simp [hSecond a ha],
    List.filter_eq_nil_iff.mpr fun a ha => by simp [hFirst a ha],
    List.filter_eq_self.mpr fun a ha => by simp [hSecond a ha]]
  exact ⟨List.append_nil first, List.nil_append second⟩

/-- The two checks of an entry are told apart by their rules. -/
theorem filter_isAbout_nameRules (config : Config) (hBinding : slot.binding = some binding)
    (hKind : binding.kind.nameable = true) :
    (identifierFindingsAt config slot).filter (Located.isAbout slot.index nameRules) =
        nameFindings config slot binding ∧
      (identifierFindingsAt config slot).filter (fun one => !one.isAbout slot.index nameRules) =
        typeFindings config slot binding := by
  rw [identifierFindingsAt_of_binding hBinding hKind]
  exact filter_append_of_forall (fun _ h => (isAbout_of_mem_nameFindings h).1)
    fun _ h => (isAbout_of_mem_typeFindings h).2

/-! ## Findings after an edit of one entry -/

theorem identifierFindings_modify (edit : Entry → Entry) (index : Nat) (tree : BindingTree) :
    identifierFindings config (tree.modify edit index) =
      tree.slots.values.flatMap fun slot =>
        identifierFindingsAt config (slot.liftAt edit index) := by
  rw [identifierFindings, slots_modify, Tree.values_map, List.flatMap_map]

theorem nodup_slots (tree : BindingTree) : tree.slots.values.Nodup := by
  refine List.Nodup.of_map (fun slot : Slot => slot.index) ?_
  rw [map_index_slots]
  exact List.nodup_range

theorem index_of_mem_identifierFindingsAt (h : located ∈ identifierFindingsAt config slot) :
    located.index = slot.index := by
  obtain ⟨_, _, rfl⟩ := exists_ofSlot_of_mem_identifierFindingsAt h
  rfl

theorem Slot.index_liftAt (edit : Entry → Entry) (index : Nat) (slot : Slot) :
    (slot.liftAt edit index).index = slot.index := by
  rw [Slot.liftAt]
  split <;> rfl

/-- What is said about the edited entry is said by its own checks. -/
theorem filter_isAbout_modify (edit : Entry → Entry) (rules : List Rule)
    (hSlot : slot ∈ tree.slots.values) :
    (identifierFindings config (tree.modify edit slot.index)).filter
        (Located.isAbout slot.index rules) =
      (identifierFindingsAt config (slot.lift edit)).filter (Located.isAbout slot.index rules) := by
  rw [identifierFindings_modify, List.filter_flatMap, ← Slot.liftAt_of_eq rfl]
  refine flatMap_eq_of_unique (nodup_slots tree) hSlot fun other hOther hDistinct => ?_
  refine List.filter_eq_nil_iff.mpr fun one hOne hAbout => hDistinct ?_
  have hIndex : one.index = slot.index := beq_iff_eq.mp (Bool.and_eq_true_iff.mp hAbout).1
  rw [index_of_mem_identifierFindingsAt hOne, Slot.index_liftAt] at hIndex
  exact slot_eq_of_index_eq hOther hSlot hIndex

/-- An edit that does not matter for the other findings of its own entry matters for none. -/
theorem filter_not_isAbout_modify {edit : Entry → Entry} {rules : List Rule}
    (hSlot : slot ∈ tree.slots.values)
    (h : (identifierFindingsAt config (slot.lift edit)).filter
        (fun one => !one.isAbout slot.index rules) =
      (identifierFindingsAt config slot).filter fun one => !one.isAbout slot.index rules) :
    (identifierFindings config (tree.modify edit slot.index)).filter
        (fun one => !one.isAbout slot.index rules) =
      (tree.identifierFindings config).filter fun one => !one.isAbout slot.index rules := by
  rw [identifierFindings_modify, identifierFindings, List.filter_flatMap, List.filter_flatMap]
  refine List.flatMap_congr fun other hOther => ?_
  by_cases hIndex : other.index = slot.index
  · rw [Slot.liftAt_of_eq hIndex, slot_eq_of_index_eq hOther hSlot hIndex]
    exact h
  · rw [Slot.liftAt_of_ne hIndex]

/-! ## Suggested names -/

theorem Slot.binding_lift_withName (name : String) (h : slot.binding = some binding) :
    (slot.lift (Entry.withName name)).binding = some { binding with name } := by
  rw [Slot.lift, Entry.withName, h, Option.map_some]

/-- A legal name that is no keyword is refused only as a further reserved word. -/
theorem map_issue_nameFindings (config : Config) (slot : Slot)
    (hLegal : Identifier.isLegal binding.name = true)
    (hKeyword : binding.name ∉ Identifier.keywords) :
    (nameFindings config slot binding).map (fun one => one.issue) =
      if binding.name ∈ config.extraReservedWords then [.reservedWord binding.name] else [] := by
  have hNamed := Batch.isEmpty_of_isLegal hLegal
  rw [nameFindings, nameIssue?, Identifier.isReserved]
  by_cases hExtra : binding.name ∈ config.extraReservedWords
  · simp [hNamed, hKeyword, hExtra, Located.ofSlot]
  · simp [hNamed, hKeyword, hExtra, hLegal]

/-- A suggested name leaves nothing to say about the name unless it is itself a further reserved
word, and it changes no other finding. -/
theorem identifierFindings_withName_suggested (h : config.HasLegalNames) (tree : BindingTree)
    (hLocated : located ∈ tree.identifierFindings config) (hRule : located.issue.rule ∈ nameRules) :
    ∃ name, located.suggestedFix = some name ∧
      let after := (tree.withName located.index name).identifierFindings config
      (after.filter (Located.isAbout located.index nameRules)).map (fun one => one.issue) =
          (if name ∈ config.extraReservedWords then [.reservedWord name] else []) ∧
        after.filter (fun one => !one.isAbout located.index nameRules) =
          (tree.identifierFindings config).filter
            fun one => !one.isAbout located.index nameRules := by
  obtain ⟨slot, hSlot, binding, hBinding, hKind, ⟨hName, _⟩ | ⟨_, hType⟩⟩ :=
    exists_slot_of_mem_identifierFindings hLocated
  · obtain ⟨issue, source, _, rfl⟩ := exists_nameIssue?_of_mem_nameFindings hName
    let name := Identifier.suggest config (config.primaryCapability slot.capabilities) source
    let renamed := slot.lift (Entry.withName name)
    have hRenamed : renamed.binding = some { binding with name } :=
      Slot.binding_lift_withName name hBinding
    obtain ⟨_, hTypes⟩ := filter_isAbout_nameRules config hBinding hKind
    obtain ⟨hNames, hTypesAfter⟩ := filter_isAbout_nameRules config hRenamed hKind
    refine ⟨name, rfl, ?_, ?_⟩
    · have hIssues :
          (nameFindings config renamed { binding with name }).map (fun one => one.issue) =
            if name ∈ config.extraReservedWords then [.reservedWord name] else [] :=
        map_issue_nameFindings config renamed (Identifier.isLegal_suggest h _ source)
          (Identifier.suggest_not_mem_keywords h _ source)
      rw [← hIssues, ← hNames]
      exact congrArg _ (filter_isAbout_modify _ nameRules hSlot)
    · exact filter_not_isAbout_modify hSlot (hTypesAfter.trans hTypes.symm)
  · rw [List.mem_singleton.mp hType] at hRule
    exact absurd hRule (by decide)

/-- Two names that are no good: the suggestion for the first one is refused in its turn. -/
def reservedRows : Hierarchy where
  document := ⟨{ label := "Hud" }, .ofTrees [
    ⟨{ label := "Top",
       binding := some { kind := .member, name := "class", typeReference := "Text" } }, .nil⟩,
    ⟨{ label := "2nd row", capabilities := ["Slider"],
       binding := some { kind := .element, typeReference := " " } }, .nil⟩]⟩

def refusesClass : Config where
  extraReservedWords := ["Class"]

theorem identifierFindings_withName_suggested_reservedRows :
    let tree := build reservedRows 0
    let keyword : Located := ⟨1, 1, "Hud/Top", .reservedWord "class", some "Class"⟩
    let unnamed : Located :=
      ⟨2, 2, "Hud/2nd row", .emptyName .element "2nd row", some "Sld_2nd_row"⟩
    let findings := tree.identifierFindings refusesClass
    let retried := (tree.withName 1 "Class").identifierFindings refusesClass
    let named := (tree.withName 2 "Sld_2nd_row").identifierFindings refusesClass
    refusesClass.HasLegalNames ∧ keyword ∈ findings ∧ unnamed ∈ findings ∧
      (retried.filter (Located.isAbout 1 nameRules)).map (fun one => one.issue) =
        [.reservedWord "Class"] ∧
      (named.filter (Located.isAbout 2 nameRules)).map (fun one => one.issue) = [] ∧
      named.filter (fun one => !one.isAbout 2 nameRules) =
        findings.filter fun one => !one.isAbout 2 nameRules := by
  intro tree keyword unnamed findings retried named
  have hNames : refusesClass.HasLegalNames := ⟨by decide, by decide⟩
  have hKeyword : keyword ∈ findings := by decide +kernel
  have hUnnamed : unnamed ∈ findings := by decide +kernel
  obtain ⟨_, hFirst, hRetried, _⟩ :=
    identifierFindings_withName_suggested hNames tree hKeyword (by decide)
  obtain ⟨_, hSecond, hNamed, hOthers⟩ :=
    identifierFindings_withName_suggested hNames tree hUnnamed (by decide)
  cases hFirst
  cases hSecond
  exact ⟨hNames, hKeyword, hUnnamed, hRetried, hNamed, hOthers⟩

/-- The name suggested in place of a keyword may be refused as well. -/
theorem not_forall_name_accepted :
    ¬ ∀ (config : Config) (tree : BindingTree) (located : Located) (name : String),
      config.HasLegalNames → located ∈ tree.identifierFindings config →
      located.issue.rule ∈ nameRules → located.suggestedFix = some name →
      ∀ one ∈ (tree.withName located.index name).identifierFindings config,
        one.index = located.index → one.issue.rule ∉ nameRules := by
  intro h
  have hNames : refusesClass.HasLegalNames := ⟨by decide, by decide⟩
  have hFound : (build reservedRows 0).identifierFindings refusesClass =
      ⟨1, 1, "Hud/Top", .reservedWord "class", some "Class"⟩ ::
        ((build reservedRows 0).identifierFindings refusesClass).tail := by decide +kernel
  have hLocated := hFound ▸ List.mem_cons_self
  have hAfter := h refusesClass _ _ _ hNames hLocated (by decide) rfl
  exact absurd hAfter (by decide +kernel)

end BindingTree

end TemplateBinding
