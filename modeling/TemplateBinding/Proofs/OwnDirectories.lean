import TemplateBinding.Artifact.Stale
import TemplateBinding.Proofs.PathComponents
import TemplateBinding.Proofs.Rendering

/-!
# The directories of a template

With the default path templates the files of a template and of its elements lie below the output
root, in directories that only depend on the template's label.  A label with slashes leads deeper,
and the template's own files lie as deep again below the directory of its elements.
-/
namespace TemplateBinding
set_option autoImplicit false

/-! ## Appended extensions -/

namespace PathName

variable {text suffix : String}

/-- The steps of a text before its last piece. -/
def innerSteps (text : String) : List Component := stepsOf (pieces text.toList).dropLast

theorem innerSteps_prefix (text : String) : innerSteps text <+: steps text :=
  ((List.dropLast_prefix _).filter _).map _

theorem innerSteps_of_not_mem (h : '/' ∉ text.toList) : innerSteps text = [] := by
  rw [innerSteps, pieces_of_not_mem h]
  rfl

/-- A piece with an extension is neither a dot nor two. -/
theorem isIdle_append (piece : List Char) {suffix : List Char}
    (hSuffix : suffix.any (· != '.') = true) :
    isIdle (piece ++ suffix) = false ∧ piece ++ suffix ≠ ['.', '.'] := by
  obtain ⟨c, hIn, hOther⟩ := List.any_eq_true.mp hSuffix
  have hChar : c ≠ '.' := bne_iff_ne.mp hOther
  have hMem : c ∈ piece ++ suffix := List.mem_append_right piece hIn
  rw [isIdle, Bool.or_eq_false_iff, beq_eq_false_iff_ne, beq_eq_false_iff_ne]
  refine ⟨⟨?_, ?_⟩, ?_⟩ <;> intro h <;> rw [h] at hMem <;> simp [hChar] at hMem

theorem isName_append (hText : '/' ∉ text.toList) (hFlat : '/' ∉ suffix.toList)
    (hSuffix : suffix.toList.any (· != '.') = true) : IsName (text ++ suffix) := by
  rw [isName_iff, String.toList_append]
  exact ⟨fun h => (List.mem_append.mp h).elim hText hFlat, isIdle_append text.toList hSuffix⟩

/-- What stands after the last slash of a text. -/
def lastPiece (text : String) : List Char := (pieces text.toList).getLastD []

theorem steps_append (text : String) (hFlat : '/' ∉ suffix.toList)
    (hSuffix : suffix.toList.any (· != '.') = true) :
    steps (text ++ suffix) = innerSteps text ++ [.name (lastPiece text ++ suffix.toList)] := by
  obtain ⟨earlier, last, hText, hBoth⟩ := exists_pieces_concat text.toList hFlat
  obtain ⟨hIdle, hDots⟩ := isIdle_append last hSuffix
  rw [steps, innerSteps, lastPiece, String.toList_append, hText, hBoth, List.dropLast_concat,
    List.getLastD_concat, stepsOf_append, stepsOf_singleton hIdle, ofPiece, if_neg hDots]

/-- Different extensions make different paths. -/
theorem eq_of_same_append {text suffix other : String} (hFlat : '/' ∉ suffix.toList)
    (hSuffix : suffix.toList.any (· != '.') = true) (hOtherFlat : '/' ∉ other.toList)
    (hOther : other.toList.any (· != '.') = true)
    (h : same (text ++ suffix) (text ++ other) = true) : suffix = other := by
  have hComponents : components (text ++ suffix) = components (text ++ other) := beq_iff_eq.mp h
  rw [components_eq_steps, components_eq_steps, steps_append text hFlat hSuffix,
    steps_append text hOtherFlat hOther, ← List.append_assoc, ← List.append_assoc] at hComponents
  have hLast := Component.name.inj (List.cons.inj (List.append_inj' hComponents rfl).2).1
  exact String.toList_inj.mp (List.append_cancel_left hLast)

end PathName

namespace Artifact

open PathName (components steps innerSteps directory? IsName)

variable {config : Config} {template name path : String}

/-- The directory parts of the paths of the template's own files and of those of an element. -/
def parents (config : Config) (template : String) : List String :=
  let pairs := [ofTemplate config template,
    renderBoth config template anyName config.pathTemplates.element]
  (pairs.flatMap ArtifactPair.both).filterMap directory?

theorem ownDirectories_eq (config : Config) (template : String) :
    ownDirectories config template = PathName.sorted (parents config template) := rfl

theorem both_filesOf (path : String) :
    (filesOf path).both = [path ++ ".cs", path ++ ".Designer.cs"] := by
  rw [filesOf, ArtifactPair.both, String.append_assoc]
  rfl

theorem exists_directory?_append (hPath : path ≠ "") (text suffix : String)
    (hFlat : '/' ∉ suffix.toList) (hSuffix : suffix.toList.any (· != '.') = true) :
    ∃ directory, directory? (path ++ "/" ++ text ++ suffix) = some directory ∧
      components directory = components path ++ innerSteps text := by
  have hSteps := PathName.steps_append text hFlat hSuffix
  have hComponents : components (path ++ "/" ++ text ++ suffix) =
      components path ++ innerSteps text ++
        [.name (PathName.lastPiece text ++ suffix.toList)] := by
    rw [String.append_assoc, PathName.components_append hPath, hSteps, List.append_assoc]
  exact PathName.exists_directory? hComponents

/-! ## Default path templates -/

/-- What becomes of the template's label in the path of a type. -/
def folder (template name : String) : String := Text.replace namePlaceholder name template

theorem folder_of_not_mem (h : '\x7b' ∉ template.toList) : folder template name = template := by
  rw [folder, Text.replace]
  exact (congrArg String.ofList (Text.replaceList_of_not_mem h)).trans String.ofList_toList

theorem renderList_root (h : '\x7b' ∉ config.outputRoot.toList) :
    renderList config template name rootPlaceholder.toList = config.outputRoot.toList := by
  have hRoot : Text.replaceList rootPlaceholder.toList config.outputRoot.toList
      rootPlaceholder.toList = config.outputRoot.toList := List.append_nil _
  have hReplace (rest replacement : List Char) : Text.replaceList ('\x7b' :: rest) replacement
      config.outputRoot.toList = config.outputRoot.toList := Text.replaceList_of_not_mem h
  rw [renderList, hRoot]
  exact (congrArg _ (hReplace _ _)).trans (hReplace _ _)

/-- A configuration with the default path templates and an output root that holds no placeholder. -/
structure HasDefaultPaths (config : Config) : Prop where
  templates : config.pathTemplates = {}
  rooted : config.outputRoot ≠ ""
  plain : '\x7b' ∉ config.outputRoot.toList

theorem renderList_below_root (hConfig : HasDefaultPaths config) (path : List Char) :
    renderList config template name (rootPlaceholder.toList ++ '/' :: path) =
      config.outputRoot.toList ++ '/' :: renderList config template name path := by
  rw [renderList_append_cons _ _ (by decide), renderList_root hConfig.plain]

theorem toList_folder (template name : String) : (folder template name).toList =
    Text.replaceList namePlaceholder.toList name.toList template.toList := String.toList_ofList

theorem renderList_folder : renderList config template name templatePlaceholder.toList =
    (folder template name).toList := by
  rw [renderList_template, toList_folder]

theorem renderBoth_below_root (hConfig : HasDefaultPaths config) {left right : String}
    {first second : List Char}
    (hPath : path.toList = rootPlaceholder.toList ++ '/' :: (first ++ '/' :: second))
    (hFirst : renderList config template name first = left.toList)
    (hSecond : renderList config template name second = right.toList) :
    renderBoth config template name (filesOf path) =
      filesOf (config.outputRoot ++ "/" ++ left ++ "/" ++ right) := by
  rw [renderBoth_filesOf]
  refine congrArg filesOf (String.toList_inj.mp ?_)
  rw [toList_render, hPath, renderList_below_root hConfig, renderList_append_cons _ _ (by decide),
    hFirst, hSecond, PathName.toList_append_slash, PathName.toList_append_slash, List.append_assoc,
    List.cons_append]

theorem renderBoth_root (hConfig : HasDefaultPaths config) (template : String) :
    ofTemplate config template =
      filesOf (config.outputRoot ++ "/" ++ folder template template ++ "/" ++
        folder template template) := by
  have hFiles : ({} : PathTemplates).root =
      filesOf "\x7broot\x7d/\x7btemplate\x7d/\x7btemplate\x7d" := rfl
  rw [ofTemplate, hConfig.templates, hFiles]
  exact renderBoth_below_root hConfig rfl renderList_folder renderList_folder

theorem renderBoth_element (hConfig : HasDefaultPaths config) (template name : String) :
    renderBoth config template name config.pathTemplates.element =
      filesOf (config.outputRoot ++ "/" ++ folder template name ++ "/" ++ name) := by
  have hFiles : ({} : PathTemplates).element =
      filesOf "\x7broot\x7d/\x7btemplate\x7d/\x7bname\x7d" := rfl
  rw [hConfig.templates, hFiles]
  exact renderBoth_below_root hConfig rfl renderList_folder renderList_name

theorem renderBoth_component (hConfig : HasDefaultPaths config) (template name : String) :
    renderBoth config template name config.pathTemplates.component =
      filesOf (config.outputRoot ++ "/" ++ "Components" ++ "/" ++ name) := by
  have hFiles : ({} : PathTemplates).component =
      filesOf "\x7broot\x7d/Components/\x7bname\x7d" := rfl
  rw [hConfig.templates, hFiles]
  exact renderBoth_below_root hConfig rfl (renderList_of_not_mem (by decide)) renderList_name

/-! ## Parents -/

theorem map_components_filesOf (hPath : path ≠ "") (text : String) :
    ((filesOf (path ++ "/" ++ text)).both.filterMap directory?).map components =
      [components path ++ innerSteps text, components path ++ innerSteps text] := by
  obtain ⟨first, hFirst, hPrimary⟩ :=
    exists_directory?_append hPath text ".cs" (by decide) (by decide)
  obtain ⟨second, hSecond, hCompanion⟩ :=
    exists_directory?_append hPath text ".Designer.cs" (by decide) (by decide)
  rw [both_filesOf, List.filterMap_cons_some hFirst, List.filterMap_cons_some hSecond,
    List.filterMap_nil, List.map_cons, List.map_cons, List.map_nil, hPrimary, hCompanion]

/-- The components of the output root, then the steps of a text below it. -/
def below (config : Config) (text : String) : List PathName.Component :=
  components config.outputRoot ++ steps text

theorem components_below (hConfig : HasDefaultPaths config) (text : String) :
    components (config.outputRoot ++ "/" ++ text) = below config text :=
  PathName.components_append hConfig.rooted text

theorem map_components_parents (hConfig : HasDefaultPaths config) (template : String) :
    let own := folder template template
    (parents config template).map components =
      [below config own ++ innerSteps own, below config own ++ innerSteps own,
        below config (folder template anyName), below config (folder template anyName)] := by
  intro own
  have hPath (text : String) := PathName.append_slash_ne_empty config.outputRoot text
  have hName : innerSteps anyName = [] := PathName.innerSteps_of_not_mem (by decide)
  rw [parents, renderBoth_root hConfig, renderBoth_element hConfig, List.flatMap_cons,
    List.flatMap_singleton, List.filterMap_append, List.map_append,
    map_components_filesOf (hPath _), map_components_filesOf (hPath _), components_below hConfig,
    components_below hConfig, hName, List.append_nil]
  rfl

/-- The directories of a template with an ordinary label are one. -/
theorem parents_of_isName (hConfig : HasDefaultPaths config) (hName : IsName template)
    (hPlain : '\x7b' ∉ template.toList) :
    parents config template = List.replicate 4 (config.outputRoot ++ "/" ++ template) := by
  have hDirectory (text suffix : String) (hText : '/' ∉ text.toList) (hFlat : '/' ∉ suffix.toList)
      (hSuffix : suffix.toList.any (· != '.') = true) :
      directory? (config.outputRoot ++ "/" ++ template ++ "/" ++ text ++ suffix) =
        some (config.outputRoot ++ "/" ++ template) := by
    rw [String.append_assoc]
    exact PathName.directory?_append hConfig.rooted hName
      (PathName.isName_append hText hFlat hSuffix)
  have hFiles (text : String) (hText : '/' ∉ text.toList) :
      (filesOf (config.outputRoot ++ "/" ++ template ++ "/" ++ text)).both.filterMap directory? =
        List.replicate 2 (config.outputRoot ++ "/" ++ template) := by
    rw [both_filesOf, List.filterMap_cons_some (hDirectory text _ hText (by decide) (by decide)),
      List.filterMap_cons_some (hDirectory text _ hText (by decide) (by decide)),
      List.filterMap_nil]
    rfl
  rw [parents, renderBoth_root hConfig, renderBoth_element hConfig, folder_of_not_mem hPlain,
    folder_of_not_mem hPlain, List.flatMap_cons, List.flatMap_singleton, List.filterMap_append,
    hFiles template hName.flat, hFiles anyName (by decide)]
  rfl

end Artifact

end TemplateBinding
