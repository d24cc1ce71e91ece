import TemplateBinding.Proofs.DeclaredFiles
import TemplateBinding.Proofs.DiskWalking
import TemplateBinding.Proofs.OwnDirectories
import TemplateBinding.Proofs.PathOrder

/-!
# The scan for stale files

The scan reports the generated files that lie directly in a directory of the template and that the
tree does not account for.  A directory is looked at in the spelling that was rendered last, and a
file below it is seen as long as its path is not too long.
-/
namespace TemplateBinding.Artifact
set_option autoImplicit false

open PathName (Ascending IsName components lastSpelling? same)

variable {config : Config} {disk : Disk} {tree : BindingTree} {directory other name path : String}

/-! ## What is found -/

/-- A generated file directly in a directory that the tree does not account for. -/
structure IsStale (config : Config) (disk : Disk) (tree : BindingTree) (directory name : String) :
    Prop where
  listed : disk.Lists directory name
  generated : isGenerated config name = true
  unexpected : ∀ expected ∈ tree.expectedArtifacts config,
    same expected (directory ++ "/" ++ name) = false

theorem unexpected_iff : (∀ expected ∈ tree.expectedArtifacts config, same expected path = false) ↔
    ∀ expected ∈ tree.artifactPaths config, same expected path = false := by
  refine PathName.forall_mem_sorted_iff fun first second hSame h => ?_
  rw [same, (PathName.same_iff _ _).mp hSame]
  exact h

theorem mem_generatedIn_iff (hDisk : disk.WellFormed) : path ∈ generatedIn config disk directory ↔
    ∃ name, disk.Lists directory name ∧ isGenerated config name = true ∧
      path = directory ++ "/" ++ name ∧ path.utf8ByteSize ≤ Disk.pathLimit := by
  rw [generatedIn, List.mem_filter, List.mem_map]
  constructor
  · rintro ⟨⟨name, hName, rfl⟩, hFile⟩
    obtain ⟨hListed, hGenerated⟩ := List.mem_filter.mp hName
    rw [Disk.mem_fileNames_iff] at hListed
    exact ⟨name, hListed, hGenerated, rfl, (Disk.isFile_append_iff hDisk hListed).mp hFile⟩
  · rintro ⟨name, hListed, hGenerated, rfl, hLength⟩
    exact ⟨⟨name, List.mem_filter.mpr ⟨Disk.mem_fileNames_iff.mpr hListed, hGenerated⟩, rfl⟩,
      (Disk.isFile_append_iff hDisk hListed).mpr hLength⟩

theorem components_of_lists (hDisk : disk.WellFormed) (h : disk.Lists directory name) :
    components (directory ++ "/" ++ name) = components directory ++ [.name name.toList] := by
  obtain ⟨names, content, hLocate, -⟩ := id h
  exact (hDisk.isFileName h).toIsName.components_append (Disk.ne_empty_of_locate hLocate)

/-- Paths to listed files are the same only below the same directory. -/
theorem same_append_iff (hDisk : disk.WellFormed) {last : String} (h : disk.Lists directory name)
    (hOther : disk.Lists other last) :
    same (directory ++ "/" ++ name) (other ++ "/" ++ last) = true ↔
      same directory other = true ∧ name = last := by
  rw [PathName.same_iff, PathName.same_iff, components_of_lists hDisk h,
    components_of_lists hDisk hOther]
  constructor
  · intro hSame
    obtain ⟨hDirectory, hName⟩ := List.append_inj' hSame rfl
    exact ⟨hDirectory,
      String.toList_inj.mp (PathName.Component.name.inj (List.cons.inj hName).1)⟩
  · rintro ⟨hDirectory, rfl⟩
    rw [hDirectory]

theorem mem_found_iff (hDisk : disk.WellFormed) {template : String} :
    path ∈ (ownDirectories config template).flatMap (generatedIn config disk) ↔
      ∃ directory name, lastSpelling? (parents config template) directory = some directory ∧
        disk.Lists directory name ∧ isGenerated config name = true ∧
          path = directory ++ "/" ++ name ∧ path.utf8ByteSize ≤ Disk.pathLimit := by
  rw [List.mem_flatMap]
  refine exists_congr fun directory => ?_
  rw [ownDirectories_eq, PathName.mem_sorted_iff, mem_generatedIn_iff hDisk, exists_and_left]

/-- No path is found twice below a directory, for its files have different names. -/
theorem distinct_generatedIn (hDisk : disk.WellFormed) (config : Config) (directory : String) :
    (generatedIn config disk directory).Pairwise fun first second => same first second = false := by
  have hNames := (hDisk.nodup_fileNames directory).filter (isGenerated config)
  refine List.Pairwise.filter _ (List.pairwise_map.mpr (hNames.imp_of_mem ?_))
  intro name last hName hLast hOther
  have hListed := Disk.mem_fileNames_iff.mp (List.mem_filter.mp hName).1
  have hLast := Disk.mem_fileNames_iff.mp (List.mem_filter.mp hLast).1
  rw [← Bool.not_eq_true, same_append_iff hDisk hListed hLast]
  exact fun hSame => hOther hSame.2

/-- No path is found twice, for no directory is looked at twice. -/
theorem distinct_found (hDisk : disk.WellFormed) (config : Config) (template : String) :
    ((ownDirectories config template).flatMap (generatedIn config disk)).Pairwise
      fun first second => same first second = false := by
  rw [List.pairwise_flatMap]
  refine ⟨fun directory _ => distinct_generatedIn hDisk config directory, ?_⟩
  rw [ownDirectories_eq]
  refine (PathName.ascending_sorted _).imp fun hBefore first hFirst second hSecond => ?_
  obtain ⟨name, hListed, -, rfl, -⟩ := (mem_generatedIn_iff hDisk).mp hFirst
  obtain ⟨last, hLast, -, rfl, -⟩ := (mem_generatedIn_iff hDisk).mp hSecond
  rw [← Bool.not_eq_true, same_append_iff hDisk hListed hLast,
    PathName.same_eq_false_of_before hBefore]
  exact fun hSame => Bool.false_ne_true hSame.1

theorem ascending_stale (hDisk : disk.WellFormed) (config : Config) (tree : BindingTree) :
    Ascending (stale config disk tree) :=
  PathName.ascending_arranged ((distinct_found hDisk config tree.templateName).filter _)

/-- The reported paths, each below a directory as it was rendered last. -/
theorem mem_stale_iff (hDisk : disk.WellFormed) : path ∈ stale config disk tree ↔
    ∃ directory name,
      lastSpelling? (parents config tree.templateName) directory = some directory ∧
        IsStale config disk tree directory name ∧ path = directory ++ "/" ++ name ∧
          path.utf8ByteSize ≤ Disk.pathLimit := by
  have hUnexpected (path : String) :
      (!(tree.artifactPaths config).any fun expected => same expected path) = true ↔
        ∀ expected ∈ tree.expectedArtifacts config, same expected path = false := by
    rw [unexpected_iff]
    simp
  rw [stale, PathName.mem_arranged_iff, List.mem_filter, mem_found_iff hDisk, hUnexpected]
  constructor
  · rintro ⟨⟨directory, name, hKept, hListed, hGenerated, rfl, hLength⟩, hNew⟩
    exact ⟨directory, name, hKept, ⟨hListed, hGenerated, hNew⟩, rfl, hLength⟩
  · rintro ⟨directory, name, hKept, ⟨hListed, hGenerated, hNew⟩, rfl, hLength⟩
    exact ⟨⟨directory, name, hKept, hListed, hGenerated, rfl, hLength⟩, hNew⟩

theorem same_append (hDirectory : directory ≠ "") (hOther : other ≠ "")
    (hSame : same directory other = true) (text : String) :
    same (directory ++ "/" ++ text) (other ++ "/" ++ text) = true := by
  rw [PathName.same_iff] at hSame ⊢
  rw [PathName.components_append hDirectory, PathName.components_append hOther, hSame]

/-- A directory may be spelled in another way as long as that is not too long. -/
theorem IsStale.of_same (h : IsStale config disk tree directory name)
    (hSame : same directory other = true) (hLength : other.utf8ByteSize ≤ Disk.pathLimit) :
    IsStale config disk tree other name := by
  obtain ⟨names, content, hLocate, hFile⟩ := h.listed
  have hOther := Disk.locate_of_same hSame hLocate hLength
  have hPaths :=
    same_append (Disk.ne_empty_of_locate hLocate) (Disk.ne_empty_of_locate hOther) hSame name
  refine ⟨⟨names, content, hOther, hFile⟩, h.generated, fun expected hExpected => ?_⟩
  have hNew := h.unexpected expected hExpected
  rw [same, (PathName.same_iff _ _).mp hPaths] at hNew
  exact hNew

/-- A stale file is reported, in one spelling or another, unless the path below the directory as it
was rendered last is too long. -/
theorem exists_mem_stale_iff (hDisk : disk.WellFormed) {kept : String}
    (hKept : lastSpelling? (parents config tree.templateName) directory = some kept)
    (h : IsStale config disk tree directory name) :
    (∃ path ∈ stale config disk tree, same path (directory ++ "/" ++ name) = true) ↔
      (kept ++ "/" ++ name).utf8ByteSize ≤ Disk.pathLimit := by
  have hSame := (PathName.mem_of_lastSpelling? hKept).2
  constructor
  · rintro ⟨path, hPath, hSpelling⟩
    obtain ⟨other, last, hOther, hStale, rfl, hLength⟩ := (mem_stale_iff hDisk).mp hPath
    obtain ⟨hDirectory, rfl⟩ := (same_append_iff hDisk hStale.listed h.listed).mp hSpelling
    rw [PathName.lastSpelling?_congr hDirectory, hKept] at hOther
    rwa [Option.some.inj hOther]
  · intro hLength
    have hShort : kept.utf8ByteSize ≤ Disk.pathLimit := by
      simp only [String.utf8ByteSize_append] at hLength
      omega
    have hStale := h.of_same hSame hShort
    obtain ⟨_, _, hLocate, -⟩ := h.listed
    obtain ⟨_, _, hOther, -⟩ := hStale.listed
    have hReported := (mem_stale_iff hDisk).mpr
      ⟨kept, name, PathName.lastSpelling?_congr hSame ▸ hKept, hStale, rfl, hLength⟩
    rw [PathName.same_comm] at hSame
    exact ⟨_, hReported,
      same_append (Disk.ne_empty_of_locate hOther) (Disk.ne_empty_of_locate hLocate) hSame name⟩

/-! ## Declared files and deleted files -/

theorem mem_artifactPaths_of_declared {scope : ScopeDeclaration}
    (hScope : scope ∈ (tree.declarations config).scopes) {declared : String}
    (hFile : declared ∈ scope.files) : declared ∈ tree.artifactPaths config := by
  obtain ⟨place, hPlace, hOf⟩ := List.mem_filterMap.mp hScope
  obtain ⟨paths, hPaths, rfl⟩ := Option.map_eq_some_iff.mp hOf
  refine List.mem_flatMap.mpr ⟨place, hPlace, ?_⟩
  rw [BindingTree.artifacts?, hPaths]
  exact hFile

theorem not_declared (hDisk : disk.WellFormed) {scope : ScopeDeclaration}
    (hScope : scope ∈ (tree.declarations config).scopes) {declared : String}
    (hFile : declared ∈ scope.files) (hPath : path ∈ stale config disk tree) :
    same declared path = false := by
  obtain ⟨directory, name, -, hStale, rfl, -⟩ := (mem_stale_iff hDisk).mp hPath
  exact unexpected_iff.mp hStale.unexpected declared (mem_artifactPaths_of_declared hScope hFile)

/-- A path that is reported after the reported files are deleted was reported before, and so it
leads to no file any more. -/
theorem stale_deleteAll (hDisk : disk.WellFormed) (config : Config) (tree : BindingTree) :
    stale config (disk.deleteAll (stale config disk tree)) tree = [] := by
  have hTrimmed := disk.trimmed_deleteAll (stale config disk tree)
  have hAfter := hTrimmed.wellFormed hDisk
  refine List.eq_nil_iff_forall_not_mem.mpr fun path hPath => ?_
  obtain ⟨directory, name, hKept, hStale, rfl, hLength⟩ := (mem_stale_iff hAfter).mp hPath
  have hBefore : directory ++ "/" ++ name ∈ stale config disk tree :=
    (mem_stale_iff hDisk).mpr ⟨directory, name, hKept,
      ⟨hTrimmed.lists hDisk hStale.listed, hStale.generated, hStale.unexpected⟩, rfl, hLength⟩
  have hFile := (Disk.isFile_append_iff hAfter hStale.listed).mpr hLength
  rw [Disk.isFile_deleteAll hDisk hBefore] at hFile
  cases hFile

/-! ## The scan is exact -/

/-- What the scan reports. -/
structure ScansExactly (config : Config) (disk : Disk) (tree : BindingTree) : Prop where
  ascending : Ascending (stale config disk tree)
  distinct : (stale config disk tree).Pairwise fun first second => same first second = false
  mem_iff (path : String) : path ∈ stale config disk tree ↔
    ∃ directory name,
      lastSpelling? (parents config tree.templateName) directory = some directory ∧
        IsStale config disk tree directory name ∧ path = directory ++ "/" ++ name ∧
          path.utf8ByteSize ≤ Disk.pathLimit
  covers (directory kept name : String) :
    lastSpelling? (parents config tree.templateName) directory = some kept →
      IsStale config disk tree directory name →
        ((∃ path ∈ stale config disk tree, same path (directory ++ "/" ++ name) = true) ↔
          (kept ++ "/" ++ name).utf8ByteSize ≤ Disk.pathLimit)
  undeclared : ∃ declarations, tree.declare config [] = .ok declarations ∧
    ∀ scope ∈ declarations.scopes, ∀ declared ∈ scope.files, ∀ path ∈ stale config disk tree,
      same declared path = false
  settled : stale config (disk.deleteAll (stale config disk tree)) tree = []

theorem stale_exact (config : Config) (disk : Disk) (tree : BindingTree) (hDisk : disk.WellFormed) :
    ScansExactly config disk tree where
  ascending := ascending_stale hDisk config tree
  distinct := (ascending_stale hDisk config tree).imp PathName.same_eq_false_of_before
  mem_iff _ := mem_stale_iff hDisk
  covers _ _ _ hKept h := exists_mem_stale_iff hDisk hKept h
  undeclared := ⟨tree.declarations config, BindingTree.declare_eq_ok_iff.mpr ⟨rfl, rfl⟩,
    fun _ hScope _ hFile _ hPath => not_declared hDisk hScope hFile hPath⟩
  settled := stale_deleteAll hDisk config tree

/-! ## A stale file below two output roots -/

/-- A template without any annotation. -/
def plainHud : BindingTree := BindingTree.build { document := ⟨{ label := "Hud" }, .nil⟩ } 0

/-- A disk with a generated file that the template does not account for. -/
def overgrownDisk : Disk where
  files := [(["Gen", "Hud", "OldInventory.cs"], .text ""), (["Gen", "Hud", "Hud.cs"], .text "")]
  directories := [["Gen"], ["Gen", "Hud"]]

theorem wellFormed_overgrownDisk : overgrownDisk.WellFormed := by
  refine ⟨by decide, fun entry hEntry => ?_, by decide⟩
  have hNames : entry.1 = ["Gen", "Hud"] ++ ["OldInventory.cs"] ∨
      entry.1 = ["Gen", "Hud"] ++ ["Hud.cs"] := by
    revert entry
    decide
  rcases hNames with h | h
  · exact ⟨_, _, h, by decide⟩
  · exact ⟨_, _, h, by decide⟩

theorem artifactPaths_plainHud (config : Config) :
    plainHud.artifactPaths config = (ofTemplate config "Hud").both := rfl

/-- Without annotations a template accounts for its own two files only. -/
theorem unexpected_of_unannotated (hConfig : HasDefaultPaths config) {label : String}
    (hTree : tree.artifactPaths config = (ofTemplate config label).both) (hLabel : IsName label)
    (hPlain : '\x7b' ∉ label.toList) (hName : IsName name)
    (hOther : name ≠ label ++ ".cs" ∧ name ≠ label ++ ".Designer.cs") :
    ∀ expected ∈ tree.expectedArtifacts config,
      same expected (config.outputRoot ++ "/" ++ label ++ "/" ++ name) = false := by
  have hOwn (suffix : String) (hFlat : '/' ∉ suffix.toList)
      (hSuffix : suffix.toList.any (· != '.') = true) (hNew : name ≠ label ++ suffix) :
      same (config.outputRoot ++ "/" ++ label ++ "/" ++ label ++ suffix)
        (config.outputRoot ++ "/" ++ label ++ "/" ++ name) = false := by
    have hPath := PathName.append_slash_ne_empty config.outputRoot label
    have hFile := PathName.isName_append hLabel.flat hFlat hSuffix
    rw [String.append_assoc, ← Bool.not_eq_true, PathName.same_iff, hFile.components_append hPath,
      hName.components_append hPath, List.append_right_inj]
    intro hSame
    exact hNew (String.toList_inj.mp (PathName.Component.name.inj (List.cons.inj hSame).1)).symm
  rw [unexpected_iff, hTree, renderBoth_root hConfig, folder_of_not_mem hPlain, both_filesOf]
  intro expected hExpected
  rcases List.mem_cons.mp hExpected with rfl | hExpected
  · exact hOwn ".cs" (by decide) (by decide) hOther.1
  · rw [List.mem_singleton.mp hExpected]
    exact hOwn ".Designer.cs" (by decide) (by decide) hOther.2

/-- The old file is stale for every output root that is a spelling of its directory. -/
theorem isStale_overgrownDisk (hConfig : HasDefaultPaths config)
    (hExtensions : config.generatedExtensions = ["cs"])
    (hRoot : components config.outputRoot = [.name "Gen".toList])
    (hLength : (config.outputRoot ++ "/" ++ "Hud").utf8ByteSize ≤ Disk.pathLimit) :
    IsStale config overgrownDisk plainHud (config.outputRoot ++ "/" ++ "Hud")
      "OldInventory.cs" := by
  have hDirectory : components "Gen/Hud" = components (config.outputRoot ++ "/" ++ "Hud") := by
    rw [components_below hConfig, below, hRoot]
    decide
  have hLocate : overgrownDisk.locate (config.outputRoot ++ "/" ++ "Hud") =
      .ok (.directory ["Gen", "Hud"]) :=
    Disk.locate_of_same ((PathName.same_iff _ _).mpr hDirectory) (by decide) hLength
  refine ⟨⟨_, _, hLocate, List.mem_cons_self⟩, ?_, ?_⟩
  · rw [isGenerated, hExtensions]
    decide
  · exact unexpected_of_unannotated hConfig (artifactPaths_plainHud config) (by decide) (by decide)
      (by decide) (by decide)

/-- A stale file of the template is reported unless the path to it is too long. -/
theorem exists_mem_stale_plainHud_iff (hDisk : disk.WellFormed) (hConfig : HasDefaultPaths config)
    (hStale : IsStale config disk plainHud (config.outputRoot ++ "/" ++ "Hud") name) :
    (∃ path ∈ stale config disk plainHud,
      same path (config.outputRoot ++ "/" ++ "Hud" ++ "/" ++ name) = true) ↔
        (config.outputRoot ++ "/" ++ "Hud" ++ "/" ++ name).utf8ByteSize ≤ Disk.pathLimit := by
  refine exists_mem_stale_iff hDisk ?_ hStale
  rw [parents_of_isName hConfig (by decide) (by decide), lastSpelling?, List.reverse_replicate]
  exact List.find?_cons_of_pos ((PathName.same_iff _ _).mpr rfl)

theorem stale_exact_overgrownDisk :
    overgrownDisk.WellFormed ∧ ScansExactly { outputRoot := "Gen" } overgrownDisk plainHud ∧
      ∃ path ∈ stale { outputRoot := "Gen" } overgrownDisk plainHud,
        same path "Gen/Hud/OldInventory.cs" = true := by
  have hConfig : HasDefaultPaths { outputRoot := "Gen" } := ⟨rfl, by decide, by decide⟩
  have hStale : IsStale { outputRoot := "Gen" } overgrownDisk plainHud
      ("Gen" ++ "/" ++ "Hud") "OldInventory.cs" :=
    isStale_overgrownDisk hConfig rfl (by decide) (by decide)
  exact ⟨wellFormed_overgrownDisk,
    stale_exact { outputRoot := "Gen" } overgrownDisk plainHud wellFormed_overgrownDisk,
    (exists_mem_stale_plainHud_iff wellFormed_overgrownDisk hConfig hStale).mpr (by decide)⟩

/-- An output root spelled with so many slashes that the path to a file below it is too long. -/
def slashedRoot : Config where
  outputRoot := "Gen" ++ "/" ++ String.ofList (List.replicate 4082 '/')

theorem utf8ByteSize_slashes (count : Nat) :
    (String.ofList (List.replicate count '/')).utf8ByteSize = count := by
  induction count with
  | zero => rfl
  | succ count ih =>
    rw [List.replicate_succ, String.ofList_cons, String.utf8ByteSize_append, ih,
      String.utf8ByteSize_singleton, Nat.add_comm]
    rfl

theorem utf8ByteSize_slashedRoot : slashedRoot.outputRoot.utf8ByteSize = 4086 := by
  rw [slashedRoot, String.utf8ByteSize_append, utf8ByteSize_slashes]
  rfl

theorem hasDefaultPaths_slashedRoot : HasDefaultPaths slashedRoot := by
  refine ⟨rfl, fun h => ?_, ?_⟩
  · have hSize := utf8ByteSize_slashedRoot
    rw [h] at hSize
    cases hSize
  · rw [slashedRoot, PathName.toList_append_slash]
    intro hIn
    rcases List.mem_append.mp hIn with hName | hSlashes
    · exact absurd hName (by decide)
    · rcases List.mem_cons.mp hSlashes with hFirst | hRest
      · exact absurd hFirst (by decide)
      · rw [String.toList_ofList] at hRest
        exact absurd (List.eq_of_mem_replicate hRest) (by decide)

theorem components_slashedRoot : components slashedRoot.outputRoot = [.name "Gen".toList] := by
  rw [slashedRoot, PathName.components_append (by decide), PathName.steps, String.toList_ofList,
    PathName.stepsOf_pieces_eq_nil fun _ hIn => List.eq_of_mem_replicate hIn]
  decide

/-- A file is not seen where the path to it is too long. -/
theorem not_forall_stale_reported :
    ¬ ∀ (config : Config) (disk : Disk) (tree : BindingTree) (directory name : String),
      disk.WellFormed → directory ∈ parents config tree.templateName →
      IsStale config disk tree directory name →
        ∃ path ∈ stale config disk tree, same path (directory ++ "/" ++ name) = true := by
  intro h
  have hConfig := hasDefaultPaths_slashedRoot
  have hSize (text : String) :
      (slashedRoot.outputRoot ++ text).utf8ByteSize = 4086 + text.utf8ByteSize := by
    rw [String.utf8ByteSize_append, utf8ByteSize_slashedRoot]
  have hParent : slashedRoot.outputRoot ++ "/" ++ "Hud" ∈ parents slashedRoot "Hud" := by
    rw [parents_of_isName hConfig (by decide) (by decide)]
    exact List.mem_cons_self
  have hStale := isStale_overgrownDisk hConfig rfl components_slashedRoot
    (by rw [String.append_assoc, hSize]; decide)
  have hReported := h slashedRoot overgrownDisk plainHud _ _ wellFormed_overgrownDisk hParent hStale
  have hShort := (exists_mem_stale_plainHud_iff wellFormed_overgrownDisk hConfig hStale).mp hReported
  rw [String.append_assoc, String.append_assoc, String.append_assoc, hSize] at hShort
  exact absurd hShort (by decide)

end TemplateBinding.Artifact
