import TemplateBinding.Proofs.StaleScan

/-!
# The directory of the components

With the default path templates all components lie in one directory below the output root,
whichever template they are generated for.  The scan of a template looks there exactly when the
template's label names that directory, and then it reports the components of other templates as
well.
-/
namespace TemplateBinding
set_option autoImplicit false

open PathName (Component IsName components innerSteps lastSpelling? same steps)

namespace Disk

variable {disk : Disk} {start next : List String}

/-- The step leads into an entry of a directory. -/
def IsDescent (component : Component) : Prop :=
  ∃ text, component = .name text ∧ PathName.isIdle text = false ∧ text ≠ ['.', '.']

theorem isDescent_of_mem_steps {text : String} {component : Component}
    (hBelow : Component.parent ∉ steps text) (h : component ∈ steps text) :
    IsDescent component := by
  cases component with
  | name piece => exact ⟨piece, rfl, (PathName.name_mem_steps_iff.mp h).2⟩
  | parent => exact absurd h hBelow
  | root | current =>
    obtain ⟨piece, -, hPiece⟩ := List.mem_map.mp h
    rw [PathName.ofPiece] at hPiece
    split at hPiece <;> cases hPiece

theorem eq_of_along? {component : Component} (hComponent : IsDescent component)
    (h : disk.along? start component = some next) :
    next = start ++ [String.ofList component.text] := by
  obtain ⟨text, rfl, hIdle, hParent⟩ := hComponent
  have hText {other : String} (hSame : String.ofList text = other) : text = other.toList := by
    rw [← hSame, String.toList_ofList]
  have hCurrent : String.ofList text ≠ "." := by
    intro hSame
    rw [hText hSame] at hIdle
    exact absurd hIdle (by decide)
  have hEnter := (lookup_eq_ok_iff hCurrent fun hSame => hParent (hText hSame)).mp
    (enter?_eq_some_iff.mp h)
  exact (entryAt_eq_directory_iff.mp hEnter.2).1.symm

theorem eq_append_of_foldlM {descents : List Component} (hAll : ∀ step ∈ descents, IsDescent step)
    (h : descents.foldlM disk.along? start = some next) :
    next = start ++ descents.map fun step => String.ofList step.text := by
  induction descents generalizing start with
  | nil => rw [List.map_nil, List.append_nil, ← Option.some.inj h]
  | cons step descents ih =>
    obtain ⟨inner, hStep, hRest⟩ := Option.bind_eq_some_iff.mp h
    obtain rfl := eq_of_along? (hAll step List.mem_cons_self) hStep
    rw [ih (fun other hOther => hAll other (List.mem_cons_of_mem step hOther)) hRest,
      List.append_assoc, List.map_cons, List.singleton_append]

theorem eq_of_map_text {first second : List Component} (hFirst : ∀ step ∈ first, IsDescent step)
    (hSecond : ∀ step ∈ second, IsDescent step)
    (h : first.map (fun step => String.ofList step.text) =
      second.map fun step => String.ofList step.text) : first = second := by
  have hBack {descents : List Component} (hAll : ∀ step ∈ descents, IsDescent step) :
      (descents.map fun step => String.ofList step.text).map (fun text => .name text.toList) =
        descents := by
    rw [List.map_map]
    refine (List.map_congr_left fun step hStep => ?_).trans (List.map_id _)
    obtain ⟨text, rfl, -⟩ := hAll step hStep
    exact congrArg Component.name String.toList_ofList
  rw [← hBack hFirst, ← hBack hSecond, h]

/-- Two descents from one place that end in one directory are the same. -/
theorem eq_of_lead? {earlier first second : List Component} {last : List String}
    (hFirst : ∀ step ∈ first, IsDescent step) (hSecond : ∀ step ∈ second, IsDescent step)
    (hLead : disk.lead? (earlier ++ first) = some last)
    (hOther : disk.lead? (earlier ++ second) = some last) : first = second := by
  rw [lead?, List.foldlM_append] at hLead hOther
  obtain ⟨start, hStart, hWalk⟩ := Option.bind_eq_some_iff.mp hLead
  rw [hStart] at hOther
  have hEnd := (eq_append_of_foldlM hFirst hWalk).symm.trans (eq_append_of_foldlM hSecond hOther)
  exact eq_of_map_text hFirst hSecond (List.append_cancel_left hEnd)

end Disk

namespace Artifact

variable {config : Config} {disk : Disk} {tree : BindingTree}
variable {directory name path template : String}

def componentDirectory (config : Config) : String := config.outputRoot ++ "/" ++ "Components"

/-- As a path the label leads from the output root to the directory of the components. -/
def NamesComponents (template : String) : Prop := steps template = [.name "Components".toList]

/-- What becomes of the label never leads up. -/
def StaysBelow (template : String) : Prop :=
  Component.parent ∉ steps (folder template template) ∧
    Component.parent ∉ steps (folder template anyName)

instance (template : String) : Decidable (NamesComponents template) :=
  inferInstanceAs (Decidable (_ = _))

instance (template : String) : Decidable (StaysBelow template) :=
  inferInstanceAs (Decidable (_ ∧ _))

theorem components_componentDirectory (hConfig : HasDefaultPaths config) :
    components (componentDirectory config) =
      components config.outputRoot ++ [.name "Components".toList] :=
  components_below hConfig "Components"

/-! ## Labels that name the directory -/

theorem not_mem_of_namesComponents {c : Char} (h : NamesComponents template)
    (hChar : c ≠ '/' ∧ c ≠ '.') (hOther : c ∉ "Components".toList) : c ∉ template.toList := by
  intro hIn
  obtain ⟨piece, hPiece, hMem⟩ := (PathName.mem_toList_iff hChar).mp hIn
  rw [h, List.mem_singleton] at hPiece
  rw [Component.name.inj hPiece] at hMem
  exact hOther hMem

/-- A placeholder in the label leaves a brace or the placeholder's own text behind, and neither
occurs in the name of the directory. -/
theorem not_mem_of_namesComponents_folder {c : Char} (hName : c ∈ name.toList)
    (hChar : c = '\x7b' ∨ c = '_') (h : NamesComponents (folder template name)) :
    '\x7b' ∉ template.toList := by
  have hBrace : '\x7b' ∉ (folder template name).toList :=
    not_mem_of_namesComponents h (by decide) (by decide)
  have hText : c ∉ (folder template name).toList := by
    rcases hChar with rfl | rfl <;> exact not_mem_of_namesComponents h (by decide) (by decide)
  have hFolder := toList_folder template name
  rw [hFolder] at hBrace hText
  intro hIn
  rcases Text.mem_or_mem_replaceList hIn hName with hLeft | hLeft
  · exact hBrace hLeft
  · exact hText hLeft

theorem namesComponents_of_folder {c : Char} (hName : c ∈ name.toList)
    (hChar : c = '\x7b' ∨ c = '_') (h : NamesComponents (folder template name)) :
    NamesComponents template := by
  have hPlain := not_mem_of_namesComponents_folder hName hChar h
  rwa [folder_of_not_mem hPlain] at h

/-- The components of the template's directories below those of the output root. -/
theorem exists_of_mem_parents (hConfig : HasDefaultPaths config)
    (h : directory ∈ parents config template) :
    ∃ descent, components directory = components config.outputRoot ++ descent ∧
      (descent = steps (folder template template) ++ innerSteps (folder template template) ∨
        descent = steps (folder template anyName)) := by
  have hIn := List.mem_map_of_mem (f := components) h
  rw [map_components_parents hConfig] at hIn
  simp only [List.mem_cons, List.not_mem_nil, or_false, below, List.append_assoc] at hIn
  rcases hIn with hOwn | hOwn | hElement | hElement
  · exact ⟨_, hOwn, .inl rfl⟩
  · exact ⟨_, hOwn, .inl rfl⟩
  · exact ⟨_, hElement, .inr rfl⟩
  · exact ⟨_, hElement, .inr rfl⟩

theorem eq_singleton_of_append_innerSteps {text : String} {step : Component}
    (h : steps text ++ innerSteps text = [step]) : steps text = [step] := by
  have hPrefix := PathName.innerSteps_prefix text
  cases hSteps : steps text with
  | nil =>
    rw [hSteps] at hPrefix h
    rw [List.prefix_nil.mp hPrefix] at h
    cases h
  | cons first later =>
    rw [hSteps] at h
    obtain ⟨rfl, hRest⟩ := List.cons.inj h
    rw [(List.append_eq_nil_iff.mp hRest).1]

theorem namesComponents_of_same (hConfig : HasDefaultPaths config)
    (hParent : directory ∈ parents config template)
    (hSame : same directory (componentDirectory config) = true) : NamesComponents template := by
  obtain ⟨descent, hComponents, hDescent⟩ := exists_of_mem_parents hConfig hParent
  rw [PathName.same_iff, hComponents, components_componentDirectory hConfig,
    List.append_right_inj] at hSame
  rw [hSame] at hDescent
  rcases hDescent with hOwn | hElement
  · by_cases hPlain : '\x7b' ∈ template.toList
    · exact namesComponents_of_folder hPlain (.inl rfl)
        (eq_singleton_of_append_innerSteps hOwn.symm)
    · have hSteps := eq_singleton_of_append_innerSteps hOwn.symm
      rwa [folder_of_not_mem hPlain] at hSteps
  · have hName : '_' ∈ anyName.toList := by decide
    exact namesComponents_of_folder hName (.inr rfl) hElement.symm

theorem exists_mem_parents_of_namesComponents (hConfig : HasDefaultPaths config)
    (h : NamesComponents template) :
    ∃ directory ∈ parents config template, same directory (componentDirectory config) = true := by
  have hPlain : '\x7b' ∉ template.toList := not_mem_of_namesComponents h (by decide) (by decide)
  obtain ⟨directory, hParent, hComponents⟩ : ∃ directory ∈ parents config template,
      components directory = below config (folder template anyName) := by
    refine List.mem_map.mp ?_
    rw [map_components_parents hConfig]
    simp
  refine ⟨directory, hParent, ?_⟩
  rw [PathName.same_iff, hComponents, folder_of_not_mem hPlain, below, h,
    components_componentDirectory hConfig]

theorem scanned_iff (hConfig : HasDefaultPaths config) :
    (∃ directory ∈ ownDirectories config template,
      same directory (componentDirectory config) = true) ↔ NamesComponents template := by
  rw [ownDirectories_eq]
  constructor
  · rintro ⟨directory, hIn, hSame⟩
    have hKept := (PathName.mem_sorted_iff _ directory).mp hIn
    exact namesComponents_of_same hConfig (PathName.mem_of_lastSpelling? hKept).1 hSame
  · intro h
    obtain ⟨directory, hParent, hSame⟩ := exists_mem_parents_of_namesComponents hConfig h
    obtain ⟨kept, hKept, hSpelling⟩ := PathName.exists_mem_sorted hParent
    refine ⟨kept, hKept, ?_⟩
    rw [PathName.same_iff] at hSame hSpelling ⊢
    rw [← hSpelling, hSame]

/-! ## What is reported -/

theorem components_ne_of_mem_stale (hDisk : disk.WellFormed) (hConfig : HasDefaultPaths config)
    (hLabel : ¬NamesComponents tree.templateName) (hPath : path ∈ stale config disk tree)
    (last : Component) : components path ≠ components (componentDirectory config) ++ [last] := by
  obtain ⟨directory, file, hKept, hStale, rfl, -⟩ := (mem_stale_iff hDisk).mp hPath
  rw [components_of_lists hDisk hStale.listed]
  intro hSame
  have hDirectory := (PathName.same_iff _ _).mpr (List.append_inj' hSame rfl).1
  exact hLabel
    (namesComponents_of_same hConfig (PathName.mem_of_lastSpelling? hKept).1 hDirectory)

/-- Without steps up, only the spelled directory leads to the directory of the components. -/
theorem locate_ne_of_mem_stale (hDisk : disk.WellFormed) (hConfig : HasDefaultPaths config)
    (hLabel : ¬NamesComponents tree.templateName) (hBelow : StaysBelow tree.templateName)
    (hPath : path ∈ stale config disk tree) {names : List String} {content : Content}
    (hFile : disk.locate path = .ok (.file names content)) :
    disk.locate (componentDirectory config) ≠ .ok (.directory names.dropLast) := by
  obtain ⟨directory, file, hKept, hStale, rfl, -⟩ := (mem_stale_iff hDisk).mp hPath
  obtain ⟨inner, _, hLocate, -⟩ := hStale.listed
  have hNames := Disk.names_of_locate_append hLocate (hDisk.isFileName hStale.listed) hFile
  rw [hNames, List.dropLast_concat]
  intro hComponents
  have hParent := (PathName.mem_of_lastSpelling? hKept).1
  obtain ⟨descent, hDescent, hSteps⟩ := exists_of_mem_parents hConfig hParent
  have hDown : ∀ step ∈ descent, Disk.IsDescent step := by
    intro step hStep
    rcases hSteps with hOwn | hElement
    · refine Disk.isDescent_of_mem_steps hBelow.1 ?_
      rw [hOwn] at hStep
      rcases List.mem_append.mp hStep with hIn | hIn
      · exact hIn
      · exact (PathName.innerSteps_prefix _).subset hIn
    · rw [hElement] at hStep
      exact Disk.isDescent_of_mem_steps hBelow.2 hStep
  have hLead := (Disk.locate_eq_directory_iff.mp hLocate).2
  have hOther := (Disk.locate_eq_directory_iff.mp hComponents).2
  rw [hDescent] at hLead
  rw [components_componentDirectory hConfig] at hOther
  have hSingle : ∀ step ∈ [Component.name "Components".toList], Disk.IsDescent step := by
    intro step hStep
    exact ⟨_, List.mem_singleton.mp hStep, by decide, by decide⟩
  have hEqual := Disk.eq_of_lead? hDown hSingle hLead hOther
  refine hLabel (namesComponents_of_same hConfig hParent ((PathName.same_iff _ _).mpr ?_))
  rw [hDescent, hEqual, components_componentDirectory hConfig]

theorem exists_mem_stale_componentDirectory (hDisk : disk.WellFormed)
    (hConfig : HasDefaultPaths config) (hLabel : NamesComponents tree.templateName)
    (hStale : IsStale config disk tree (componentDirectory config) name)
    (hLength : ∀ directory ∈ parents config tree.templateName,
      (directory ++ "/" ++ name).utf8ByteSize ≤ Disk.pathLimit) :
    ∃ path ∈ stale config disk tree,
      same path (componentDirectory config ++ "/" ++ name) = true := by
  obtain ⟨directory, hParent, hSame⟩ := exists_mem_parents_of_namesComponents hConfig hLabel
  obtain ⟨kept, hKept⟩ := PathName.exists_lastSpelling? hParent
  rw [PathName.lastSpelling?_congr hSame] at hKept
  exact (exists_mem_stale_iff hDisk hKept hStale).mpr
    (hLength kept (PathName.mem_of_lastSpelling? hKept).1)

/-- The files of a component lie directly in the directory, whichever template it belongs to. -/
theorem exists_components_of_component (hConfig : HasDefaultPaths config) {other : String}
    {files : ArtifactPair} (hLegal : Identifier.isLegal name = true)
    (hFiles : ofKind? config other .component name = some files) {file : String}
    (hFile : file ∈ files.both) :
    ∃ last, components file = components (componentDirectory config) ++ [last] := by
  have hFlat : '/' ∉ name.toList := Identifier.not_mem_of_isLegal hLegal (by decide)
  have hChild (suffix : String) (hSuffix : '/' ∉ suffix.toList)
      (hChar : suffix.toList.any (· != '.') = true) :
      components (componentDirectory config ++ "/" ++ name ++ suffix) =
        components (componentDirectory config) ++ [.name (name ++ suffix).toList] := by
    rw [String.append_assoc]
    exact (PathName.isName_append hFlat hSuffix hChar).components_append
      (PathName.append_slash_ne_empty _ _)
  have hRendered : renderBoth config other name config.pathTemplates.component = files :=
    Option.some.inj hFiles
  rw [← hRendered, renderBoth_component hConfig, both_filesOf] at hFile
  rcases List.mem_cons.mp hFile with rfl | hCompanion
  · exact ⟨_, hChild ".cs" (by decide) (by decide)⟩
  · rw [List.mem_singleton.mp hCompanion]
    exact ⟨_, hChild ".Designer.cs" (by decide) (by decide)⟩

/-- How the scan of a template treats the directory of the components. -/
structure SparesComponents (config : Config) (disk : Disk) (tree : BindingTree) : Prop where
  scanned_iff : (∃ directory ∈ ownDirectories config tree.templateName,
    same directory (componentDirectory config) = true) ↔ NamesComponents tree.templateName
  apart : ¬NamesComponents tree.templateName → ∀ path ∈ stale config disk tree, ∀ last,
    components path ≠ components (componentDirectory config) ++ [last]
  apartOnDisk : ¬NamesComponents tree.templateName → StaysBelow tree.templateName →
    ∀ path ∈ stale config disk tree, ∀ names content, disk.locate path = .ok (.file names content) →
      disk.locate (componentDirectory config) ≠ .ok (.directory names.dropLast)
  spared : ¬NamesComponents tree.templateName → ∀ (other name : String) (files : ArtifactPair),
    Identifier.isLegal name = true → ofKind? config other .component name = some files →
      ∀ file ∈ files.both, ∀ path ∈ stale config disk tree, same file path = false
  reported : NamesComponents tree.templateName → ∀ name,
    IsStale config disk tree (componentDirectory config) name →
      (∀ directory ∈ parents config tree.templateName,
        (directory ++ "/" ++ name).utf8ByteSize ≤ Disk.pathLimit) →
      ∃ path ∈ stale config disk tree, same path (componentDirectory config ++ "/" ++ name) = true

theorem stale_spares_components (config : Config) (disk : Disk) (tree : BindingTree)
    (hDisk : disk.WellFormed) (hConfig : HasDefaultPaths config) :
    SparesComponents config disk tree where
  scanned_iff := scanned_iff hConfig
  apart hLabel _ hPath := components_ne_of_mem_stale hDisk hConfig hLabel hPath
  apartOnDisk hLabel hBelow _ hPath _ _ hFile :=
    locate_ne_of_mem_stale hDisk hConfig hLabel hBelow hPath hFile
  spared hLabel other name files hLegal hFiles file hFile path hPath := by
    obtain ⟨last, hComponents⟩ := exists_components_of_component hConfig hLegal hFiles hFile
    refine Bool.eq_false_iff.mpr fun hSame => ?_
    rw [PathName.same_iff, hComponents] at hSame
    exact components_ne_of_mem_stale hDisk hConfig hLabel hPath last hSame.symm
  reported hLabel _ hStale hLength :=
    exists_mem_stale_componentDirectory hDisk hConfig hLabel hStale hLength

/-- A template called like the directory of the components. -/
def componentsTemplate : BindingTree :=
  BindingTree.build { document := ⟨{ label := "Components" }, .nil⟩ } 0

/-- A disk with a component of another template, and with an old file of the template Hud. -/
def sharedDisk : Disk where
  files := [(["Assets", "Scripts", "UI", "Components", "Card.cs"], .text ""),
    (["Assets", "Scripts", "UI", "Hud", "OldCard.cs"], .text "")]
  directories := [["Assets"], ["Assets", "Scripts"], ["Assets", "Scripts", "UI"],
    ["Assets", "Scripts", "UI", "Components"], ["Assets", "Scripts", "UI", "Hud"]]

theorem wellFormed_sharedDisk : sharedDisk.WellFormed := by
  refine ⟨by decide, fun entry hEntry => ?_, by decide⟩
  have hNames : entry.1 = ["Assets", "Scripts", "UI", "Components"] ++ ["Card.cs"] ∨
      entry.1 = ["Assets", "Scripts", "UI", "Hud"] ++ ["OldCard.cs"] := by
    revert entry
    decide
  rcases hNames with h | h
  · exact ⟨_, _, h, by decide⟩
  · exact ⟨_, _, h, by decide⟩

theorem isStale_sharedDisk :
    IsStale {} sharedDisk componentsTemplate (componentDirectory {}) "Card.cs" := by
  have hLocate : sharedDisk.locate (componentDirectory {}) =
      .ok (.directory ["Assets", "Scripts", "UI", "Components"]) := by
    decide +kernel
  refine ⟨⟨_, _, hLocate, List.mem_cons_self⟩, by decide, ?_⟩
  exact unexpected_of_unannotated ⟨rfl, by decide, by decide⟩ rfl (by decide) (by decide)
    (by decide) (by decide)

theorem hasDefaultPaths_default : HasDefaultPaths {} := ⟨rfl, by decide, by decide⟩

theorem isStale_plainHud : IsStale {} sharedDisk plainHud "Assets/Scripts/UI/Hud" "OldCard.cs" := by
  have hLocate : sharedDisk.locate "Assets/Scripts/UI/Hud" =
      .ok (.directory ["Assets", "Scripts", "UI", "Hud"]) := by
    decide +kernel
  refine ⟨⟨_, _, hLocate, List.mem_cons_of_mem _ List.mem_cons_self⟩, by decide, ?_⟩
  exact unexpected_of_unannotated hasDefaultPaths_default (artifactPaths_plainHud {}) (by decide)
    (by decide) (by decide) (by decide)

/-- The scan reports the old file of its template and spares the component of the other one. -/
theorem stale_spares_components_sharedDisk :
    sharedDisk.WellFormed ∧ HasDefaultPaths {} ∧ SparesComponents {} sharedDisk plainHud ∧
      ¬NamesComponents plainHud.templateName ∧ StaysBelow plainHud.templateName ∧
        ∃ path ∈ stale {} sharedDisk plainHud,
          same path "Assets/Scripts/UI/Hud/OldCard.cs" = true := by
  have hDisk := wellFormed_sharedDisk
  have hConfig := hasDefaultPaths_default
  exact ⟨hDisk, hConfig, stale_spares_components {} sharedDisk plainHud hDisk hConfig, by decide,
    by decide, (exists_mem_stale_plainHud_iff hDisk hConfig isStale_plainHud).mpr (by decide)⟩

/-- The component of another template is reported for a template called like the directory. -/
theorem not_forall_components_spared :
    ¬ ∀ (config : Config) (disk : Disk) (tree : BindingTree),
      disk.WellFormed → HasDefaultPaths config → ∀ path ∈ stale config disk tree, ∀ last,
        components path ≠ components (componentDirectory config) ++ [last] := by
  intro h
  have hLabel : NamesComponents componentsTemplate.templateName := by decide
  have hLength : ∀ directory ∈ parents {} componentsTemplate.templateName,
      (directory ++ "/" ++ "Card.cs").utf8ByteSize ≤ Disk.pathLimit := by
    intro directory hParent
    have hIn : directory ∈ parents {} "Components" := hParent
    rw [parents_of_isName hasDefaultPaths_default (by decide) (by decide)] at hIn
    rw [List.eq_of_mem_replicate hIn]
    decide
  obtain ⟨path, hPath, hSame⟩ := exists_mem_stale_componentDirectory wellFormed_sharedDisk
    hasDefaultPaths_default hLabel isStale_sharedDisk hLength
  refine h {} sharedDisk componentsTemplate wellFormed_sharedDisk hasDefaultPaths_default path hPath
    (.name "Card.cs".toList) ?_
  rw [(PathName.same_iff _ _).mp hSame]
  exact components_of_lists wellFormed_sharedDisk isStale_sharedDisk.listed

end Artifact

end TemplateBinding
