import TemplateBinding.Proofs.DiskWalking

/-!
# Well-formed disks

On a disk the files have proper names and no file is a directory as well.  A file or a directory is
made only where a path has found nothing, so everything that is done to a disk keeps it well formed.
-/
namespace TemplateBinding.Disk
set_option autoImplicit false

open PathName (IsName)

variable {disk after before : Disk} {names start : List String} {content : Content}
  {found : Found} {piece path name : String} {pieces : List String} {slashAtEnd : Bool}

/-! ## What is missing -/

/-- Something is missing where there is neither a file nor a directory, under a name that the path
gave. -/
theorem exists_of_lookup_eq_missing (h : disk.lookup start piece = .ok (.missing names)) :
    ∃ inner, names = inner ++ [piece] ∧ piece ≠ "." ∧ piece ≠ ".." ∧
      piece.utf8ByteSize ≤ nameLimit ∧ disk.contentAt? names = none ∧
        disk.hasDirectory names = false := by
  have hCurrent : piece ≠ "." := by
    rintro rfl
    rw [lookup.eq_def, if_pos rfl] at h
    cases h
  have hParent : piece ≠ ".." := by
    rintro rfl
    rw [lookup.eq_def, if_neg hCurrent, if_pos rfl] at h
    cases h
  obtain ⟨hShort, hEntry⟩ := (lookup_eq_ok_iff hCurrent hParent).mp h
  obtain ⟨rfl, hContent, hDirectory⟩ := entryAt_eq_missing_iff.mp hEntry
  exact ⟨start, rfl, hCurrent, hParent, hShort, hContent, hDirectory⟩

theorem exists_of_follow_eq_missing
    (h : disk.follow slashAtEnd start pieces = .ok (.missing names)) :
    ∃ inner, ∃ piece ∈ pieces, disk.lookup inner piece = .ok (.missing names) := by
  induction pieces generalizing start with
  | nil => cases h
  | cons piece pieces ih =>
    cases pieces with
    | nil =>
      rw [follow] at h
      split at h
      · split at h <;> cases h
      · exact ⟨start, piece, List.mem_cons_self, h⟩
    | cons second later =>
      obtain ⟨next, -, hRest⟩ := exists_of_follow_cons h
      obtain ⟨inner, last, hIn, hLookup⟩ := ih hRest
      exact ⟨inner, last, List.mem_cons_of_mem piece hIn, hLookup⟩

theorem isFileName_of_mem_piecesOf (hPath : pathFault? path = none) (hIn : piece ∈ piecesOf path)
    (hCurrent : piece ≠ ".") (hParent : piece ≠ "..") (hShort : piece.utf8ByteSize ≤ nameLimit) :
    IsFileName piece := by
  obtain ⟨text, hText, rfl⟩ := List.mem_map.mp hIn
  obtain ⟨hPiece, hFilled⟩ := List.mem_filter.mp hText
  refine ⟨⟨?_, ?_, hCurrent, hParent⟩, ?_, hShort⟩
  · rw [ne_eq, ← String.toList_eq_nil_iff, String.toList_ofList]
    simpa using hFilled
  · rw [String.toList_ofList]
    exact PathName.not_mem_of_mem_pieces hPiece
  · rw [String.toList_ofList]
    exact fun hNul => (pathFault?_eq_none_iff.mp hPath).1 (PathName.mem_of_mem_pieces hPiece hNul)

/-- The names of something missing are fit for a file. -/
theorem exists_of_locate_eq_missing (h : disk.locate path = .ok (.missing names)) :
    (∃ inner name, names = inner ++ [name] ∧ IsFileName name) ∧
      disk.hasDirectory names = false := by
  have hFault := pathFault?_of_locate h
  rw [locate, hFault] at h
  obtain ⟨start, piece, hIn, hLookup⟩ := exists_of_follow_eq_missing h
  obtain ⟨inner, rfl, hCurrent, hParent, hShort, -, hFree⟩ := exists_of_lookup_eq_missing hLookup
  exact ⟨⟨inner, piece, rfl,
    isFileName_of_mem_piecesOf hFault hIn hCurrent hParent hShort⟩, hFree⟩

/-! ## What is done to a disk -/

theorem WellFormed.of_files_eq_nil (h : disk.files = []) : disk.WellFormed := by
  constructor <;> simp [h]

/-- Taking files and directories away makes no file of a directory. -/
theorem WellFormed.mono (hBefore : before.WellFormed) (hHome : after.home = before.home)
    (hFiles : after.files.Sublist before.files)
    (hDirectories : after.directories ⊆ before.directories) : after.WellFormed where
  once := hBefore.once.sublist (hFiles.map Prod.fst)
  named entry hEntry := hBefore.named entry (hFiles.subset hEntry)
  apart entry hEntry := by
    have hApart := hBefore.apart entry (hFiles.subset hEntry)
    rw [hasDirectory, Bool.or_eq_false_iff] at hApart ⊢
    rw [hHome]
    refine ⟨hApart.1, Bool.eq_false_iff.mpr fun hIn => ?_⟩
    rw [List.contains_iff_mem.mpr (hDirectories (List.contains_iff_mem.mp hIn))] at hApart
    cases hApart.2

theorem WellFormed.put (hDisk : disk.WellFormed)
    (hNames : ∃ inner name, names = inner ++ [name] ∧ IsFileName name)
    (hFree : disk.hasDirectory names = false) : (disk.put names content).WellFormed where
  once := by
    rw [Disk.put, List.map_append, List.nodup_append]
    refine ⟨hDisk.once.sublist (List.filter_sublist.map Prod.fst), by simp, ?_⟩
    rintro _ hOld other hNew rfl
    obtain ⟨entry, hEntry, hNames⟩ := List.mem_map.mp hOld
    have hOther : entry.1 ≠ names := by simpa using (List.mem_filter.mp hEntry).2
    exact hOther (hNames.trans (by simpa using hNew))
  named entry hEntry := by
    rcases List.mem_append.mp hEntry with hOld | hNew
    · exact hDisk.named entry (List.mem_filter.mp hOld |>.1)
    · rw [List.mem_singleton.mp hNew]
      exact hNames
  apart entry hEntry := by
    rcases List.mem_append.mp hEntry with hOld | hNew
    · exact hDisk.apart entry (List.mem_filter.mp hOld |>.1)
    · rw [List.mem_singleton.mp hNew]
      exact hFree

theorem WellFormed.put_of_leadsTo (hDisk : disk.WellFormed) (h : disk.LeadsTo path names) :
    (disk.put names content).WellFormed := by
  obtain ⟨_, hLocate, ⟨old, rfl⟩ | rfl, -⟩ := h
  · obtain ⟨stored, hEntry⟩ := exists_mem_of_contentAt? (contentAt?_of_locate hLocate)
    exact hDisk.put (hDisk.named _ hEntry) (hDisk.apart _ hEntry)
  · obtain ⟨hNames, hFree⟩ := exists_of_locate_eq_missing hLocate
    exact hDisk.put hNames hFree

theorem WellFormed.write (hDisk : disk.WellFormed) (path : String) (content : Content) :
    (disk.write path content).2.WellFormed := by
  have hWrites := writes_write disk path content
  generalize disk.write path content = answer at hWrites ⊢
  cases hWrites with
  | refused => exact hDisk
  | done leads | cut leads => exact hDisk.put_of_leadsTo leads

theorem WellFormed.delete (hDisk : disk.WellFormed) (h : disk.delete path = .ok after) :
    after.WellFormed := by
  obtain ⟨names, content, -, rfl⟩ := delete_eq_ok_iff.mp h
  exact hDisk.mono rfl List.filter_sublist (List.Subset.refl _)

theorem WellFormed.makeAlong (hDisk : disk.WellFormed) (start : List String) (pieces : List String) :
    (disk.makeAlong start pieces).WellFormed := by
  induction pieces generalizing disk start with
  | nil => exact hDisk
  | cons piece pieces ih =>
    rw [Disk.makeAlong]
    split
    · exact ih hDisk _
    · rename_i names hLookup
      obtain ⟨-, -, -, -, -, hContent, -⟩ := exists_of_lookup_eq_missing hLookup
      have hMade : WellFormed { disk with directories := disk.directories ++ [names] } := by
        refine ⟨hDisk.once, hDisk.named, fun entry hEntry => ?_⟩
        have hApart := hDisk.apart entry hEntry
        have hOther := contentAt?_eq_none_iff.mp hContent entry hEntry
        rw [hasDirectory, Bool.or_eq_false_iff] at hApart ⊢
        exact ⟨hApart.1, by simpa [hOther] using hApart.2⟩
      exact ih hMade names
    · exact hDisk

theorem WellFormed.makeDirectory (hDisk : disk.WellFormed) (path : String) :
    (disk.makeDirectory path).WellFormed := by
  rw [Disk.makeDirectory]
  split
  · exact hDisk
  · exact hDisk.makeAlong _ _

theorem WellFormed.makeFile (hDisk : disk.WellFormed) (path : String) (content : Content) :
    (disk.makeFile path content).WellFormed := by
  have hPrepared :
      ((PathName.directory? path).elim disk disk.makeDirectory).WellFormed := by
    cases PathName.directory? path with
    | none => exact hDisk
    | some directory => exact hDisk.makeDirectory directory
  exact hPrepared.write path content

theorem WellFormed.removeAll (hDisk : disk.WellFormed) (path : String) :
    (disk.removeAll path).WellFormed := by
  rw [Disk.removeAll]
  split
  · exact hDisk.mono rfl List.filter_sublist (List.Subset.refl _)
  · have hCleared (names : List String) : (disk.clear names).WellFormed :=
      hDisk.mono rfl List.filter_sublist List.filter_sublist.subset
    dsimp only
    split
    · exact hCleared _
    · exact (hCleared _).mono rfl (.refl _) List.filter_sublist.subset
  · exact hDisk

/-- Made of a disk without files by writing, making and deleting. -/
inductive Made : Disk → Prop where
  | bare (home : List String) (directories : List (List String))
      (obstacles : List (List String × Obstacle)) : Made { home, directories, obstacles }
  | write {disk : Disk} (path : String) (content : Content) :
      Made disk → Made (disk.write path content).2
  | delete {disk after : Disk} {path : String} :
      Made disk → disk.delete path = .ok after → Made after
  | makeDirectory {disk : Disk} (path : String) : Made disk → Made (disk.makeDirectory path)
  | makeFile {disk : Disk} (path : String) (content : Content) :
      Made disk → Made (disk.makeFile path content)
  | removeAll {disk : Disk} (path : String) : Made disk → Made (disk.removeAll path)

theorem Made.wellFormed (h : disk.Made) : disk.WellFormed := by
  induction h with
  | bare home directories obstacles => exact .of_files_eq_nil rfl
  | write path content _ ih => exact ih.write path content
  | delete _ hDelete ih => exact ih.delete hDelete
  | makeDirectory path _ ih => exact ih.makeDirectory path
  | makeFile path content _ ih => exact ih.makeFile path content
  | removeAll path _ ih => exact ih.removeAll path

end TemplateBinding.Disk
