import TemplateBinding.Proofs.DiskWriting
import TemplateBinding.Proofs.PathComponents
import TemplateBinding.Proofs.PathOrder

/-!
# Walking through directories

The pieces of a path in front of the last one are directories that are entered one after the other,
so a path to a directory leads where its components lead, and what is found below a directory does
not depend on how the directory is spelled.  Deleting files opens no directories and leads no path
to another file.
-/
namespace TemplateBinding.Disk
set_option autoImplicit false

open PathName (Component IsName components steps headComponents)

variable {disk after before : Disk} {names start next last : List String} {content : Content}
  {found : Found} {piece path directory other name : String} {pieces : List String}
  {slashAtEnd : Bool}

/-! ## Entering directories -/

/-- Where a piece leads if it leads into a directory. -/
def enter? (disk : Disk) (start : List String) (piece : String) : Option (List String) :=
  match disk.lookup start piece with
  | .ok (.directory next) => some next
  | _ => none

theorem enter?_eq_some_iff :
    disk.enter? start piece = some next ↔ disk.lookup start piece = .ok (.directory next) := by
  rw [enter?]
  split
  · rename_i hLookup
    rw [hLookup]
    simp
  · rename_i hOther
    exact ⟨nofun, fun h => (hOther next h).elim⟩

def walk? (disk : Disk) (start : List String) (pieces : List String) : Option (List String) :=
  pieces.foldlM disk.enter? start

theorem walk?_cons (disk : Disk) (start : List String) (piece : String) (pieces : List String) :
    disk.walk? start (piece :: pieces) =
      (disk.enter? start piece).bind fun next => disk.walk? next pieces := rfl

theorem follow_cons_of_enter? (h : disk.enter? start piece = some next) (hPieces : pieces ≠ []) :
    disk.follow slashAtEnd start (piece :: pieces) = disk.follow slashAtEnd next pieces := by
  obtain ⟨second, later, rfl⟩ := List.exists_cons_of_ne_nil hPieces
  rw [follow, enter?_eq_some_iff.mp h]
  exact List.cons_ne_nil second later

/-- A path may be followed to one of its directories and on from there. -/
theorem follow_append_of_walk? {earlier : List String} (h : disk.walk? start earlier = some next)
    (hPieces : pieces ≠ []) :
    disk.follow slashAtEnd start (earlier ++ pieces) = disk.follow slashAtEnd next pieces := by
  induction earlier generalizing start with
  | nil => rw [Option.some.inj h, List.nil_append]
  | cons piece earlier ih =>
    obtain ⟨inner, hEnter, hRest⟩ := Option.bind_eq_some_iff.mp h
    rw [List.cons_append, follow_cons_of_enter? hEnter (by simp [hPieces]), ih hRest]

theorem follow_singleton_of_open (h : slashAtEnd = false) :
    disk.follow slashAtEnd start [piece] = disk.lookup start piece := by
  rw [h, follow]
  split
  · rename_i hFile
    rw [hFile]
    rfl
  · rfl

theorem follow_eq_directory_iff :
    disk.follow slashAtEnd start pieces = .ok (.directory last) ↔
      disk.walk? start pieces = some last := by
  induction pieces generalizing start with
  | nil => simp [follow, walk?]
  | cons piece pieces ih =>
    rw [walk?_cons, Option.bind_eq_some_iff]
    by_cases hPieces : pieces = []
    · subst hPieces
      constructor
      · intro h
        rw [follow] at h
        split at h
        · split at h <;> cases h
        · exact ⟨last, enter?_eq_some_iff.mpr h, rfl⟩
      · rintro ⟨inner, hEnter, hRest⟩
        cases hRest
        rw [follow, enter?_eq_some_iff.mp hEnter]
    · constructor
      · intro h
        obtain ⟨second, later, rfl⟩ := List.exists_cons_of_ne_nil hPieces
        obtain ⟨inner, hLookup, hRest⟩ := exists_of_follow_cons h
        exact ⟨inner, enter?_eq_some_iff.mpr hLookup, ih.mp hRest⟩
      · rintro ⟨inner, hEnter, hRest⟩
        rw [follow_cons_of_enter? hEnter hPieces]
        exact ih.mpr hRest

theorem exists_of_follow_eq_file
    (h : disk.follow slashAtEnd start pieces = .ok (.file names content)) :
    slashAtEnd = false ∧ ∃ earlier piece inner, pieces = earlier ++ [piece] ∧
      disk.walk? start earlier = some inner ∧
        disk.lookup inner piece = .ok (.file names content) := by
  induction pieces generalizing start with
  | nil => cases h
  | cons piece pieces ih =>
    cases pieces with
    | nil =>
      obtain ⟨hLookup, hOpen⟩ := lookup_of_follow_last h
      exact ⟨hOpen content rfl, [], piece, start, rfl, rfl, hLookup⟩
    | cons second later =>
      obtain ⟨inner, hLookup, hRest⟩ := exists_of_follow_cons h
      obtain ⟨hOpen, earlier, final, above, hPieces, hWalk, hFile⟩ := ih hRest
      refine ⟨hOpen, piece :: earlier, final, above, by rw [hPieces, List.cons_append], ?_, hFile⟩
      rw [walk?_cons, enter?_eq_some_iff.mpr hLookup]
      exact hWalk

/-! ## Components -/

/-- Where a component of a path leads from a directory. -/
def along? (disk : Disk) (start : List String) : Component → Option (List String)
  | .root => some []
  | .current => some start
  | .parent => some start.dropLast
  | .name text => disk.enter? start (String.ofList text)

def lead? (disk : Disk) (components : List Component) : Option (List String) :=
  components.foldlM disk.along? disk.home

theorem enter?_current (disk : Disk) (start : List String) : disk.enter? start "." = some start := by
  rw [enter?, lookup.eq_def, if_pos rfl]

theorem enter?_parent (disk : Disk) (start : List String) : disk.enter? start ".." = some start.dropLast := by
  rw [enter?, lookup.eq_def, if_neg (by decide), if_pos rfl]

theorem along?_ofPiece (disk : Disk) (start : List String) (piece : List Char) :
    disk.along? start (PathName.ofPiece piece) = disk.enter? start (String.ofList piece) := by
  rw [PathName.ofPiece]
  split
  · rename_i hDots
    rw [hDots]
    exact (enter?_parent disk start).symm
  · rfl

/-- Empty pieces and dots stay where they are, so only the steps of a text matter. -/
theorem walk?_pieces (disk : Disk) (start : List String) (parts : List (List Char)) :
    disk.walk? start ((parts.filter fun piece => !piece.isEmpty).map String.ofList) =
      (PathName.stepsOf parts).foldlM disk.along? start := by
  induction parts generalizing start with
  | nil => rfl
  | cons piece parts ih =>
    by_cases hEmpty : piece = []
    · rw [hEmpty, List.filter_cons_of_neg (by simp), PathName.stepsOf_cons_of_idle rfl]
      exact ih start
    · rw [List.filter_cons_of_pos (by simpa using hEmpty), List.map_cons, walk?_cons]
      by_cases hDot : piece = ['.']
      · rw [hDot, PathName.stepsOf_cons_of_idle rfl, ← ih start]
        exact congrArg (Option.bind · _) (enter?_current disk start)
      · have hStep : PathName.isIdle piece = false := by simp [PathName.isIdle, hEmpty, hDot]
        rw [← List.singleton_append, PathName.stepsOf_append, PathName.stepsOf_singleton hStep,
          List.singleton_append, List.foldlM_cons, along?_ofPiece]
        exact congrArg _ (funext ih)

theorem foldlM_headComponents (disk : Disk) (path : String) :
    (headComponents (PathName.splitHead path.toList).1).foldlM disk.along? disk.home =
      some (disk.startOf path) := by
  rw [startOf, PathName.splitHead.eq_def]
  split
  · rename_i hText
    rw [hText]
    rfl
  · rename_i hText
    rw [hText]
    rfl
  · rename_i hText
    rw [hText]
    rfl
  · rename_i hRoot _ _
    rw [if_neg]
    · rfl
    · intro hFirst
      obtain ⟨rest, hText⟩ := List.head?_eq_some_iff.mp hFirst
      exact hRoot rest hText

/-- A path leads to a directory if its components do. -/
theorem locate_eq_directory_iff : disk.locate path = .ok (.directory start) ↔
    pathFault? path = none ∧ disk.lead? (components path) = some start := by
  have hLead : disk.lead? (components path) = disk.walk? (disk.startOf path) (piecesOf path) := by
    rw [lead?, PathName.components_eq_steps, List.foldlM_append, foldlM_headComponents, steps]
    exact (walk?_pieces disk (disk.startOf path) _).symm
  rw [hLead, locate]
  cases pathFault? path with
  | some fault => simp
  | none => simp [follow_eq_directory_iff]

theorem pathFault?_eq_none_iff : pathFault? path = none ↔
    '\x00' ∉ path.toList ∧ path ≠ "" ∧ path.utf8ByteSize ≤ pathLimit := by
  rw [pathFault?]
  split
  · rename_i hNul
    exact iff_of_false (Option.some_ne_none _) fun h => absurd (List.contains_iff_mem.mp hNul) h.1
  · rename_i hNul
    rw [List.contains_iff_mem] at hNul
    split
    · rename_i hEmpty
      exact iff_of_false (Option.some_ne_none _) fun h => absurd (String.isEmpty_iff.mp hEmpty) h.2.1
    · rename_i hEmpty
      rw [String.isEmpty_iff] at hEmpty
      split
      · rename_i hLong
        exact iff_of_false (Option.some_ne_none _) fun h => absurd h.2.2 (Nat.not_le.mpr hLong)
      · rename_i hShort
        exact ⟨fun _ => ⟨hNul, hEmpty, Nat.not_lt.mp hShort⟩, fun _ => rfl⟩

theorem pathFault?_of_locate (h : disk.locate path = .ok found) : pathFault? path = none := by
  rw [locate] at h
  split at h
  · cases h
  · assumption

theorem ne_empty_of_locate (h : disk.locate path = .ok found) : path ≠ "" :=
  (pathFault?_eq_none_iff.mp (pathFault?_of_locate h)).2.1

/-- Besides its length, the spelling of a path does not decide whether it can be looked up. -/
theorem pathFault?_of_same (hSame : PathName.same path other = true)
    (hPath : pathFault? path = none) (hLength : other.utf8ByteSize ≤ pathLimit) :
    pathFault? other = none := by
  have hComponents := (PathName.same_iff _ _).mp hSame
  obtain ⟨hNul, hEmpty, -⟩ := pathFault?_eq_none_iff.mp hPath
  refine pathFault?_eq_none_iff.mpr ⟨fun hIn => hNul ?_, fun hOther => hEmpty ?_, hLength⟩
  · obtain ⟨piece, hStep, hChar⟩ := (PathName.mem_toList_iff (by decide)).mp hIn
    rw [← PathName.name_mem_components_iff, ← hComponents] at hStep
    exact (PathName.mem_toList_iff (by decide)).mpr
      ⟨piece, PathName.name_mem_components_iff.mp hStep, hChar⟩
  · rw [← PathName.components_eq_nil_iff, hComponents, hOther]
    decide

theorem locate_of_same (hSame : PathName.same path other = true)
    (hLocate : disk.locate path = .ok (.directory start))
    (hLength : other.utf8ByteSize ≤ pathLimit) :
    disk.locate other = .ok (.directory start) := by
  obtain ⟨hFault, hLead⟩ := locate_eq_directory_iff.mp hLocate
  rw [(PathName.same_iff _ _).mp hSame] at hLead
  exact locate_eq_directory_iff.mpr ⟨pathFault?_of_same hSame hFault hLength, hLead⟩

/-! ## Files of a directory -/

theorem contentAt?_eq_none_iff :
    disk.contentAt? names = none ↔ ∀ entry ∈ disk.files, entry.1 ≠ names := by
  rw [contentAt?, Option.map_eq_none_iff, List.find?_eq_none]
  exact forall₂_congr fun entry _ => by simp

theorem exists_mem_of_contentAt? (h : disk.contentAt? names = some content) :
    ∃ stored, (names, stored) ∈ disk.files := by
  by_contra hNone
  have hContent : disk.contentAt? names = none :=
    contentAt?_eq_none_iff.mpr fun entry hEntry hNames => hNone ⟨entry.2, hNames ▸ hEntry⟩
  rw [h] at hContent
  cases hContent

theorem exists_contentAt?_of_mem (h : (names, content) ∈ disk.files) :
    ∃ stored, disk.contentAt? names = some stored := by
  cases hContent : disk.contentAt? names with
  | some stored => exact ⟨stored, rfl⟩
  | none => exact absurd rfl (contentAt?_eq_none_iff.mp hContent _ h)

/-- A text that can be the name of a file on a disk. -/
structure IsFileName (name : String) : Prop extends IsName name where
  noNul : '\x00' ∉ name.toList
  short : name.utf8ByteSize ≤ nameLimit

instance (name : String) : Decidable (IsFileName name) :=
  decidable_of_iff (IsName name ∧ '\x00' ∉ name.toList ∧ name.utf8ByteSize ≤ nameLimit)
    ⟨fun h => ⟨h.1, h.2.1, h.2.2⟩, fun h => ⟨h.toIsName, h.noNul, h.short⟩⟩

/-- What holds of the files of every disk: they have names, each of its own, and none is a directory
as well. -/
structure WellFormed (disk : Disk) : Prop where
  once : (disk.files.map Prod.fst).Nodup
  named : ∀ entry ∈ disk.files, ∃ names name, entry.1 = names ++ [name] ∧ IsFileName name
  apart : ∀ entry ∈ disk.files, disk.hasDirectory entry.1 = false

/-- There is a file of the name directly in the directory that the path leads to. -/
def Lists (disk : Disk) (directory name : String) : Prop :=
  ∃ names content, disk.locate directory = .ok (.directory names) ∧
    (names ++ [name], content) ∈ disk.files

theorem ite_getLast?_eq_some_iff {found : List String} :
    (if found.dropLast == names then found.getLast? else none) = some name ↔
      found = names ++ [name] := by
  rw [Option.ite_none_right_eq_some, beq_iff_eq]
  constructor
  · rintro ⟨rfl, hLast⟩
    exact (List.dropLast_append_getLast? name hLast).symm
  · rintro rfl
    simp

theorem mem_fileNames_iff : name ∈ disk.fileNames directory ↔ disk.Lists directory name := by
  rw [fileNames, Lists]
  split
  · rename_i names hLocate
    rw [List.mem_filterMap, hLocate]
    constructor
    · rintro ⟨⟨found, content⟩, hFile, hSome⟩
      obtain rfl : found = names ++ [name] := ite_getLast?_eq_some_iff.mp hSome
      exact ⟨names, content, rfl, hFile⟩
    · rintro ⟨inner, content, hInner, hFile⟩
      cases hInner
      exact ⟨_, hFile, ite_getLast?_eq_some_iff.mpr rfl⟩
  · rename_i hOther
    refine ⟨nofun, ?_⟩
    rintro ⟨names, content, hLocate, -⟩
    exact (hOther names hLocate).elim

/-- A directory beside the working one, called from the top and from below. -/
example :
    let disk : Disk :=
      { home := ["work"], directories := [["out"]], files := [(["out", "Old.cs"], .text "")] }
    disk.fileNames "/out" = ["Old.cs"] ∧ disk.fileNames "../out" = ["Old.cs"] := by decide

theorem WellFormed.nodup_fileNames (hDisk : disk.WellFormed) (directory : String) :
    (disk.fileNames directory).Nodup := by
  rw [fileNames]
  split
  · rename_i names hLocate
    refine List.pairwise_filterMap.mpr ((List.pairwise_map.mp hDisk.once).imp ?_)
    intro first second hNames name hFirst last hSecond hSame
    rw [ite_getLast?_eq_some_iff] at hFirst hSecond
    exact hNames (hFirst.trans (hSame ▸ hSecond.symm))
  · exact List.nodup_nil

theorem WellFormed.isFileName (hDisk : disk.WellFormed) (h : disk.Lists directory name) :
    IsFileName name := by
  obtain ⟨names, content, -, hFile⟩ := h
  obtain ⟨inner, last, hNames, hName⟩ := hDisk.named _ hFile
  obtain ⟨-, hLast⟩ := List.append_inj' hNames rfl
  exact (List.cons.inj hLast).1 ▸ hName

theorem piecesOf_append (path : String) (hName : IsName name) :
    piecesOf (path ++ "/" ++ name) = piecesOf path ++ [name] := by
  rw [piecesOf, PathName.toList_append_slash, PathName.pieces_append_cons,
    hName.pieces_eq, List.filter_append, List.map_append,
    List.filter_cons_of_pos (by simpa using hName.toList_ne_nil)]
  exact congrArg (_ ++ [·]) String.ofList_toList

theorem endsInSlash_append (path : String) (hName : IsName name) :
    endsInSlash (path ++ "/" ++ name) = false := by
  rw [endsInSlash, PathName.toList_append_slash, beq_eq_false_iff_ne, List.append_cons,
    List.getLast?_append_of_ne_nil _ hName.toList_ne_nil]
  exact fun h => hName.flat (List.mem_of_getLast? h)

theorem startOf_append (disk : Disk) (hPath : path ≠ "") (name : String) :
    disk.startOf (path ++ "/" ++ name) = disk.startOf path := by
  rw [startOf, startOf, PathName.toList_append_slash, List.head?_append_of_ne_nil]
  exact fun h => hPath (String.toList_eq_nil_iff.mp h)

theorem lookup_of_isFileName (disk : Disk) (names : List String) (hName : IsFileName name) :
    disk.lookup names name = .ok (disk.entryAt (names ++ [name])) :=
  lookup_of_short disk names hName.notCurrent hName.notParent hName.short

/-- What is found one name below a directory, unless the path is too long. -/
theorem locate_append (hLocate : disk.locate directory = .ok (.directory start))
    (hName : IsFileName name) (hLength : (directory ++ "/" ++ name).utf8ByteSize ≤ pathLimit) :
    disk.locate (directory ++ "/" ++ name) = disk.lookup start name := by
  obtain ⟨hNul, hEmpty, -⟩ := pathFault?_eq_none_iff.mp (pathFault?_of_locate hLocate)
  have hFine : pathFault? (directory ++ "/" ++ name) = none := by
    refine pathFault?_eq_none_iff.mpr ⟨?_, PathName.append_slash_ne_empty _ _, hLength⟩
    rw [PathName.toList_append_slash]
    simp [hNul, hName.noNul]
  have hWalk : disk.walk? (disk.startOf directory) (piecesOf directory) = some start := by
    rw [locate, pathFault?_of_locate hLocate] at hLocate
    exact follow_eq_directory_iff.mp hLocate
  rw [locate, hFine]
  dsimp only
  rw [piecesOf_append _ hName.toIsName, startOf_append disk hEmpty,
    follow_append_of_walk? hWalk (List.cons_ne_nil name []),
    follow_singleton_of_open (endsInSlash_append _ hName.toIsName)]

theorem isFile_iff : disk.isFile path = true ↔
    ∃ names content, disk.locate path = .ok (.file names content) := by
  rw [isFile]
  split
  · rename_i names content hLocate
    exact ⟨fun _ => ⟨names, content, hLocate⟩, fun _ => rfl⟩
  · rename_i hOther
    refine ⟨nofun, ?_⟩
    rintro ⟨names, content, hLocate⟩
    exact (hOther names content hLocate).elim

/-- The path to a file that a directory lists leads to it, unless the path is too long. -/
theorem isFile_append_iff (hDisk : disk.WellFormed) (h : disk.Lists directory name) :
    disk.isFile (directory ++ "/" ++ name) = true ↔
      (directory ++ "/" ++ name).utf8ByteSize ≤ pathLimit := by
  have hName := hDisk.isFileName h
  obtain ⟨names, content, hLocate, hFile⟩ := h
  constructor
  · intro hFound
    obtain ⟨_, _, hOk⟩ := isFile_iff.mp hFound
    exact (pathFault?_eq_none_iff.mp (pathFault?_of_locate hOk)).2.2
  · intro hLength
    obtain ⟨stored, hStored⟩ := exists_contentAt?_of_mem hFile
    refine isFile_iff.mpr ⟨names ++ [name], stored, ?_⟩
    rw [locate_append hLocate hName hLength, lookup_of_isFileName disk names hName,
      entryAt_eq_file_iff.mpr ⟨rfl, hStored⟩]

/-! ## Disks with fewer files -/

/-- The disk with some files taken away. -/
structure Trimmed (after before : Disk) : Prop where
  home : after.home = before.home
  directories : after.directories = before.directories
  files : after.files.Sublist before.files

theorem Trimmed.refl (disk : Disk) : disk.Trimmed disk := ⟨rfl, rfl, .refl _⟩

theorem Trimmed.trans {middle : Disk} (hAfter : after.Trimmed middle)
    (hBefore : middle.Trimmed before) : after.Trimmed before :=
  ⟨hAfter.home.trans hBefore.home, hAfter.directories.trans hBefore.directories,
    hAfter.files.trans hBefore.files⟩

theorem Trimmed.hasDirectory (h : after.Trimmed before) (names : List String) :
    after.hasDirectory names = before.hasDirectory names := by
  rw [Disk.hasDirectory, Disk.hasDirectory, h.home, h.directories]

theorem Trimmed.wellFormed (h : after.Trimmed before) (hBefore : before.WellFormed) :
    after.WellFormed where
  once := hBefore.once.sublist (h.files.map Prod.fst)
  named entry hEntry := hBefore.named entry (h.files.subset hEntry)
  apart entry hEntry := (h.hasDirectory _).trans (hBefore.apart entry (h.files.subset hEntry))

theorem WellFormed.entryAt_eq_directory_iff (hDisk : disk.WellFormed) :
    disk.entryAt names = .directory start ↔ names = start ∧ disk.hasDirectory names = true := by
  rw [Disk.entryAt_eq_directory_iff]
  refine and_congr_right fun _ => and_iff_right_of_imp fun hDirectory => ?_
  refine contentAt?_eq_none_iff.mpr fun entry hEntry hNames => ?_
  rw [← hNames, hDisk.apart entry hEntry] at hDirectory
  cases hDirectory

/-- Which directories can be entered does not depend on the files. -/
theorem Trimmed.enter?_eq (h : after.Trimmed before) (hBefore : before.WellFormed) :
    after.enter? = before.enter? := by
  funext start piece
  refine Option.ext fun next => ?_
  rw [enter?_eq_some_iff, enter?_eq_some_iff]
  obtain ⟨inner, hLookup⟩ | hLookup | ⟨here, hLookup⟩ := lookup_cases start piece
  · rw [hLookup, hLookup]
  · rw [hLookup, hLookup]
  · rw [hLookup, hLookup, Except.ok.injEq, Except.ok.injEq,
      (h.wellFormed hBefore).entryAt_eq_directory_iff, hBefore.entryAt_eq_directory_iff,
      h.hasDirectory]

theorem Trimmed.locate_eq_directory_iff (h : after.Trimmed before) (hBefore : before.WellFormed) :
    after.locate path = .ok (.directory start) ↔ before.locate path = .ok (.directory start) := by
  have hAlong : after.along? = before.along? := by
    funext start component
    cases component with
    | root | current | parent => rfl
    | name text => exact congrFun (congrFun (h.enter?_eq hBefore) start) _
  rw [Disk.locate_eq_directory_iff, Disk.locate_eq_directory_iff, lead?, lead?, hAlong, h.home]

theorem contentAt?_of_lookup (h : disk.lookup start piece = .ok (.file names content)) :
    (∀ other : Disk, other.lookup start piece = .ok (other.entryAt names)) ∧
      disk.contentAt? names = some content := by
  obtain ⟨inner, hLookup⟩ | hLookup | ⟨here, hLookup⟩ := lookup_cases start piece
  · rw [hLookup] at h
    cases h
  · rw [hLookup] at h
    cases h
  · have hEntry : disk.entryAt here = .file names content :=
      Except.ok.inj ((hLookup disk).symm.trans h)
    obtain ⟨rfl, hContent⟩ := entryAt_eq_file_iff.mp hEntry
    exact ⟨hLookup, hContent⟩

theorem contentAt?_of_locate (h : disk.locate path = .ok (.file names content)) :
    disk.contentAt? names = some content := by
  rw [locate, pathFault?_of_locate h] at h
  obtain ⟨-, _, _, _, -, -, hLookup⟩ := exists_of_follow_eq_file h
  exact (contentAt?_of_lookup hLookup).2

/-- A path that leads to a file led there when there were more files. -/
theorem Trimmed.exists_locate (h : after.Trimmed before) (hBefore : before.WellFormed)
    (hLocate : after.locate path = .ok (.file names content)) :
    ∃ stored, before.locate path = .ok (.file names stored) := by
  have hFault := pathFault?_of_locate hLocate
  rw [locate, hFault] at hLocate
  obtain ⟨hOpen, earlier, piece, inner, hPieces, hWalk, hLookup⟩ := exists_of_follow_eq_file hLocate
  obtain ⟨hEntry, hContent⟩ := contentAt?_of_lookup hLookup
  obtain ⟨stored, hStored⟩ : ∃ stored, before.contentAt? names = some stored := by
    obtain ⟨stored, hStored⟩ := exists_mem_of_contentAt? hContent
    exact exists_contentAt?_of_mem (h.files.subset hStored)
  have hStart : after.startOf path = before.startOf path := by rw [startOf, startOf, h.home]
  rw [walk?, h.enter?_eq hBefore, hStart] at hWalk
  refine ⟨stored, ?_⟩
  rw [locate, hFault]
  dsimp only
  rw [hPieces, follow_append_of_walk? hWalk (List.cons_ne_nil piece []),
    follow_singleton_of_open hOpen, hEntry, entryAt_eq_file_iff.mpr ⟨rfl, hStored⟩]

/-- The names of a file end with the one by which its directory lists it. -/
theorem names_of_locate_append {inner : List String}
    (hDirectory : disk.locate directory = .ok (.directory inner))
    (hName : IsFileName name)
    (h : disk.locate (directory ++ "/" ++ name) = .ok (.file names content)) :
    names = inner ++ [name] := by
  have hLength := (pathFault?_eq_none_iff.mp (pathFault?_of_locate h)).2.2
  rw [locate_append hDirectory hName hLength, lookup_of_isFileName disk inner hName] at h
  exact (entryAt_eq_file_iff.mp (Except.ok.inj h)).1.symm

theorem Trimmed.isFile (h : after.Trimmed before) (hBefore : before.WellFormed)
    (hFile : after.isFile path = true) : before.isFile path = true := by
  obtain ⟨names, content, hLocate⟩ := isFile_iff.mp hFile
  obtain ⟨stored, hStored⟩ := h.exists_locate hBefore hLocate
  exact isFile_iff.mpr ⟨names, stored, hStored⟩

theorem Trimmed.lists (h : after.Trimmed before) (hBefore : before.WellFormed)
    (hLists : after.Lists directory name) : before.Lists directory name := by
  obtain ⟨names, content, hLocate, hFile⟩ := hLists
  exact ⟨names, content, (h.locate_eq_directory_iff hBefore).mp hLocate, h.files.subset hFile⟩

/-! ## Deleting -/

/-- Deletes what a path leads to, if that is a file. -/
def deleteIfFile (disk : Disk) (path : String) : Disk :=
  match disk.delete path with
  | .ok after => after
  | .error _ => disk

def deleteAll (disk : Disk) (paths : List String) : Disk := paths.foldl deleteIfFile disk

theorem delete_eq_ok_iff : disk.delete path = .ok after ↔
    ∃ names content, disk.locate path = .ok (.file names content) ∧ after = disk.remove names := by
  rw [delete]
  split <;> simp [*, eq_comm]

theorem trimmed_remove (disk : Disk) (names : List String) : (disk.remove names).Trimmed disk :=
  ⟨rfl, rfl, List.filter_sublist⟩

theorem trimmed_deleteIfFile (disk : Disk) (path : String) :
    (disk.deleteIfFile path).Trimmed disk := by
  rw [deleteIfFile]
  split
  · rename_i after hDelete
    obtain ⟨names, content, -, rfl⟩ := delete_eq_ok_iff.mp hDelete
    exact disk.trimmed_remove names
  · exact .refl disk

theorem isFile_deleteIfFile (hDisk : disk.WellFormed) (path : String) :
    (disk.deleteIfFile path).isFile path = false := by
  refine Bool.eq_false_iff.mpr fun hFile => ?_
  obtain ⟨names, content, hLocate⟩ := isFile_iff.mp hFile
  obtain ⟨stored, hStored⟩ := (disk.trimmed_deleteIfFile path).exists_locate hDisk hLocate
  have hDelete : disk.delete path = .ok (disk.remove names) :=
    delete_eq_ok_iff.mpr ⟨names, stored, hStored, rfl⟩
  have hContent := contentAt?_of_locate hLocate
  have hGone : (disk.remove names).contentAt? names = none :=
    contentAt?_eq_none_iff.mpr fun entry hEntry => by simpa using (List.mem_filter.mp hEntry).2
  rw [deleteIfFile, hDelete] at hContent
  rw [hGone] at hContent
  cases hContent

theorem trimmed_deleteAll (disk : Disk) (paths : List String) :
    (disk.deleteAll paths).Trimmed disk := by
  induction paths generalizing disk with
  | nil => exact .refl disk
  | cons path paths ih => exact (ih (disk.deleteIfFile path)).trans (disk.trimmed_deleteIfFile path)

theorem isFile_deleteAll (hDisk : disk.WellFormed) {paths : List String} (h : path ∈ paths) :
    (disk.deleteAll paths).isFile path = false := by
  induction paths generalizing disk with
  | nil => cases h
  | cons first paths ih =>
    have hFirst := (disk.trimmed_deleteIfFile first).wellFormed hDisk
    rcases List.mem_cons.mp h with rfl | hRest
    · refine Bool.eq_false_iff.mpr fun hFile => ?_
      have hLeft := (trimmed_deleteAll _ paths).isFile hFirst hFile
      rw [isFile_deleteIfFile hDisk path] at hLeft
      cases hLeft
    · exact ih hFirst hRest

end TemplateBinding.Disk
