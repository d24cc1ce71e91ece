import TemplateBinding.Disk

/-!
# Reading what was written

What a piece of a path leads to depends on one entry of the disk at most.  Putting a file where there
is no directory changes no other entry, so the path that led there leads to the new content.
-/
namespace TemplateBinding
set_option autoImplicit false

/-- The content is what is left of another one whose last bytes are missing. -/
def Content.IsBeginning (part whole : Content) : Prop :=
  part.bytes <+: whole.bytes ∧ part ≠ whole

theorem Content.isBeginning_take {content : Content} {count : Nat}
    (h : count < content.bytes.length) : (content.take count).IsBeginning content := by
  refine ⟨?_, fun hWhole => ?_⟩
  · rw [bytes_take]
    exact List.take_prefix count content.bytes
  · have hLength : (content.take count).bytes.length = count := by
      rw [bytes_take, List.length_take_of_le (Nat.le_of_lt h)]
    rw [hWhole] at hLength
    exact Nat.ne_of_gt h hLength

namespace Disk

variable {disk after : Disk} {names here start : List String} {content : Content} {found : Found}
  {piece : String} {pieces : List String} {slashAtEnd : Bool} {path : String}

/-- A file may be put at the names: there is one already, or there is nothing. -/
def Found.IsPlace (found : Found) (names : List String) : Prop :=
  (∃ content, found = .file names content) ∨ found = .missing names

theorem contentAt?_put (disk : Disk) (names other : List String) (content : Content) :
    (disk.put names content).contentAt? other =
      if other = names then some content else disk.contentAt? other := by
  rw [contentAt?, put, remove, List.find?_append]
  by_cases hSame : other = names
  · have hGone : (disk.files.filter fun entry => entry.1 != names).find?
        (fun entry => entry.1 == other) = none := by
      refine List.find?_eq_none.mpr fun entry hEntry => ?_
      simpa [hSame] using (List.mem_filter.mp hEntry).2
    rw [hGone, Option.none_or, if_pos hSame, hSame, List.find?_cons_of_pos (by simp)]
    rfl
  · have hKept : (disk.files.filter fun entry => entry.1 != names).find?
        (fun entry => entry.1 == other) = disk.files.find? fun entry => entry.1 == other := by
      rw [List.find?_filter]
      congr 1
      funext entry
      by_cases h : entry.1 = other
      · simp [h, hSame]
      · simp [h]
    have hNone : [(names, content)].find? (fun entry => entry.1 == other) = none := by
      simp [Ne.symm hSame]
    rw [hKept, hNone, Option.or_none, if_neg hSame, contentAt?]

theorem entryAt_put (disk : Disk) (names here : List String) (content : Content) :
    (disk.put names content).entryAt here =
      if here = names then .file names content else disk.entryAt here := by
  rw [entryAt, contentAt?_put]
  by_cases hSame : here = names
  · rw [if_pos hSame, if_pos hSame, hSame]
  · rw [if_neg hSame, if_neg hSame]
    rfl

theorem entryAt_eq_file_iff : disk.entryAt here = .file names content ↔
    here = names ∧ disk.contentAt? names = some content := by
  rw [entryAt]
  cases hContent : disk.contentAt? here with
  | some stored =>
    rw [Found.file.injEq]
    refine and_congr_right fun hNames => ?_
    rw [← hNames, hContent, Option.some.injEq]
  | none =>
    refine ⟨fun h => ?_, ?_⟩
    · dsimp only at h
      split at h <;> cases h
    · rintro ⟨rfl, h⟩
      rw [hContent] at h
      cases h

theorem entryAt_eq_directory_iff : disk.entryAt here = .directory names ↔
    here = names ∧ disk.contentAt? here = none ∧ disk.hasDirectory here = true := by
  rw [entryAt]
  cases disk.contentAt? here <;> cases disk.hasDirectory here <;> simp

theorem entryAt_eq_missing_iff : disk.entryAt here = .missing names ↔
    here = names ∧ disk.contentAt? here = none ∧ disk.hasDirectory here = false := by
  rw [entryAt]
  cases disk.contentAt? here <;> cases disk.hasDirectory here <;> simp

theorem names_of_isPlace_entryAt (h : (disk.entryAt here).IsPlace names) : here = names := by
  rcases h with ⟨content, hFile⟩ | hMissing
  · exact (entryAt_eq_file_iff.mp hFile).1
  · exact (entryAt_eq_missing_iff.mp hMissing).1

theorem lookup_of_short (disk : Disk) (start : List String) (hCurrent : piece ≠ ".")
    (hParent : piece ≠ "..") (hShort : piece.utf8ByteSize ≤ nameLimit) :
    disk.lookup start piece = .ok (disk.entryAt (start ++ [piece])) := by
  rw [lookup, if_neg hCurrent, if_neg hParent, if_neg (Nat.not_lt.mpr hShort)]

/-- A piece other than dots leads to an entry of the directory it is looked up in. -/
theorem lookup_eq_ok_iff (hCurrent : piece ≠ ".") (hParent : piece ≠ "..") :
    disk.lookup start piece = .ok found ↔
      piece.utf8ByteSize ≤ nameLimit ∧ disk.entryAt (start ++ [piece]) = found := by
  rw [lookup, if_neg hCurrent, if_neg hParent]
  split
  · rename_i hLong
    exact ⟨nofun, fun h => absurd h.1 (Nat.not_le.mpr hLong)⟩
  · rename_i hShort
    rw [Except.ok.injEq, and_iff_right (Nat.not_lt.mp hShort)]

theorem lookup_cases (start : List String) (piece : String) :
    (∃ next, ∀ disk : Disk, disk.lookup start piece = .ok (.directory next)) ∨
      (∀ disk : Disk, disk.lookup start piece = .error .nameTooLong) ∨
        ∃ here, ∀ disk : Disk, disk.lookup start piece = .ok (disk.entryAt here) := by
  by_cases hCurrent : piece = "."
  · exact .inl ⟨start, fun disk => by rw [lookup, if_pos hCurrent]⟩
  by_cases hParent : piece = ".."
  · exact .inl ⟨start.dropLast, fun disk => by rw [lookup, if_neg hCurrent, if_pos hParent]⟩
  by_cases hShort : piece.utf8ByteSize ≤ nameLimit
  · exact .inr (.inr ⟨start ++ [piece],
      fun disk => lookup_of_short disk start hCurrent hParent hShort⟩)
  · refine .inr (.inl fun disk => ?_)
    rw [lookup, if_neg hCurrent, if_neg hParent, if_pos (Nat.not_le.mp hShort)]

theorem lookup_put_of_directory {next : List String} (hFree : (disk.entryAt names).IsPlace names)
    (h : disk.lookup start piece = .ok (.directory next)) :
    (disk.put names content).lookup start piece = .ok (.directory next) := by
  obtain ⟨inner, hLookup⟩ | hLookup | ⟨here, hLookup⟩ := lookup_cases start piece
  · rw [hLookup] at h ⊢
    exact h
  · rw [hLookup] at h
    cases h
  · rw [hLookup] at h ⊢
    have hEntry : disk.entryAt here = .directory next := Except.ok.inj h
    have hOther : here ≠ names := by
      rintro rfl
      rw [hEntry] at hFree
      rcases hFree with ⟨_, hFree⟩ | hFree <;> cases hFree
    rw [entryAt_put, if_neg hOther, hEntry]

theorem lookup_put_of_isPlace (content : Content) (h : disk.lookup start piece = .ok found)
    (hPlace : found.IsPlace names) : (disk.entryAt names).IsPlace names ∧
      (disk.put names content).lookup start piece = .ok (.file names content) := by
  obtain ⟨next, hLookup⟩ | hLookup | ⟨here, hLookup⟩ := lookup_cases start piece
  · rw [hLookup] at h
    cases h
    rcases hPlace with ⟨_, hPlace⟩ | hPlace <;> cases hPlace
  · rw [hLookup] at h
    cases h
  · rw [hLookup] at h ⊢
    obtain rfl : disk.entryAt here = found := Except.ok.inj h
    obtain rfl := names_of_isPlace_entryAt hPlace
    rw [entryAt_put, if_pos rfl]
    exact ⟨hPlace, rfl⟩

theorem lookup_of_follow_last (h : disk.follow slashAtEnd start [piece] = .ok found) :
    disk.lookup start piece = .ok found ∧
      ∀ content, found = .file names content → slashAtEnd = false := by
  rw [follow] at h
  split at h
  · rename_i hFile
    split at h
    · cases h
    · rename_i hSlash
      exact ⟨hFile.trans h, fun _ _ => by simpa using hSlash⟩
  · rename_i hOther
    refine ⟨h, ?_⟩
    rintro content rfl
    exact absurd h (hOther names content)

theorem exists_of_follow_cons {next : String}
    (h : disk.follow slashAtEnd start (piece :: next :: pieces) = .ok found) :
    ∃ inner, disk.lookup start piece = .ok (.directory inner) ∧
      disk.follow slashAtEnd inner (next :: pieces) = .ok found := by
  rw [follow] at h
  · split at h
    · cases h
    · exact ⟨_, by assumption, h⟩
    · cases h
    · cases h
  · exact List.cons_ne_nil next pieces

/-- The path to a place leads to what is put there.  The claim about the place itself is needed on the
way, for no directory on the path may be replaced. -/
theorem follow_put (h : disk.follow slashAtEnd start pieces = .ok found)
    (hPlace : found.IsPlace names) (hSlash : found = .missing names → slashAtEnd = false) :
    (disk.entryAt names).IsPlace names ∧
      (disk.put names content).follow slashAtEnd start pieces = .ok (.file names content) := by
  induction pieces generalizing start with
  | nil =>
    cases h
    rcases hPlace with ⟨_, hPlace⟩ | hPlace <;> cases hPlace
  | cons piece pieces ih =>
    cases pieces with
    | nil =>
      obtain ⟨hLookup, hFile⟩ := lookup_of_follow_last h
      obtain ⟨hFree, hPut⟩ := lookup_put_of_isPlace content hLookup hPlace
      have hEnd : slashAtEnd = false := by
        rcases hPlace with ⟨old, hOld⟩ | hMissing
        · exact hFile old hOld
        · exact hSlash hMissing
      refine ⟨hFree, ?_⟩
      rw [follow, hPut, hEnd]
      rfl
    | cons next pieces =>
      obtain ⟨inner, hLookup, hInner⟩ := exists_of_follow_cons h
      obtain ⟨hFree, hPut⟩ := ih hInner
      refine ⟨hFree, ?_⟩
      rw [follow, lookup_put_of_directory hFree hLookup]
      · exact hPut
      · simp

/-! ## Writing -/

/-- What a path leads to may be written, under these names. -/
def LeadsTo (disk : Disk) (path : String) (names : List String) : Prop :=
  ∃ found, disk.locate path = .ok found ∧ found.IsPlace names ∧
    (found = .missing names → endsInSlash path = false)

theorem leadsTo_of_file (h : disk.locate path = .ok (.file names content)) :
    disk.LeadsTo path names := ⟨_, h, .inl ⟨content, rfl⟩, nofun⟩

theorem locate_put (h : disk.LeadsTo path names) (content : Content) :
    (disk.put names content).locate path = .ok (.file names content) := by
  obtain ⟨found, hLocate, hPlace, hSlash⟩ := h
  rw [locate] at hLocate ⊢
  cases hFault : pathFault? path with
  | some fault =>
    rw [hFault] at hLocate
    cases hLocate
  | none =>
    rw [hFault] at hLocate
    exact (follow_put hLocate hPlace hSlash).2

theorem follow_ne_noSpace : disk.follow slashAtEnd start pieces ≠ .error .noSpace := by
  have hLookup (start : List String) (piece : String) :
      disk.lookup start piece ≠ .error .noSpace := by
    obtain ⟨_, hLookup⟩ | hLookup | ⟨_, hLookup⟩ := lookup_cases start piece <;>
      rw [hLookup] <;> exact nofun
  induction pieces generalizing start with
  | nil => exact nofun
  | cons piece pieces ih =>
    cases pieces with
    | nil =>
      rw [follow]
      split
      · split <;> exact nofun
      · exact hLookup start piece
    | cons next pieces =>
      intro h
      rw [follow] at h
      · split at h
        · rename_i hError
          cases h
          exact hLookup start piece hError
        · exact ih h
        · cases h
        · cases h
      · exact List.cons_ne_nil next pieces

/-- Finding a file takes no room. -/
theorem locate_ne_noSpace : disk.locate path ≠ .error .noSpace := by
  rw [locate]
  split
  · rename_i fault hFault
    rintro ⟨⟩
    grind [pathFault?]
  · exact follow_ne_noSpace

/-- How a write ends.  Only a device without room leaves another content than before or than the
new one, namely the beginning of the new one. -/
inductive Writes (disk : Disk) (path : String) (content : Content) :
    Except FileFault Unit × Disk → Prop where
  | refused {fault : FileFault} (cause : fault ≠ .noSpace) :
      Writes disk path content (.error fault, disk)
  | done {names : List String} (leads : disk.LeadsTo path names) :
      Writes disk path content (.ok (), disk.put names content)
  | cut {names : List String} {bytes : Nat} (leads : disk.LeadsTo path names)
      (obstacle : disk.obstacle? names = some (.room bytes))
      (short : bytes < content.bytes.length) :
      Writes disk path content (.error .noSpace, disk.put names (content.take bytes))

theorem writes_fill (h : disk.LeadsTo path names) (content : Content) :
    Writes disk path content (disk.fill names content) := by
  rw [fill]
  cases hObstacle : disk.obstacle? names with
  | none => exact .done h
  | some obstacle =>
    cases obstacle with
    | forbidden => exact .refused nofun
    | room bytes =>
      dsimp only
      split
      · exact .done h
      · rename_i hShort
        exact .cut h hObstacle (Nat.not_le.mp hShort)

theorem writes_write (disk : Disk) (path : String) (content : Content) :
    Writes disk path content (disk.write path content) := by
  rw [write]
  split
  · rename_i fault hLocate
    refine .refused ?_
    rintro rfl
    exact locate_ne_noSpace hLocate
  · rename_i hLocate
    exact writes_fill (leadsTo_of_file hLocate) content
  · exact .refused nofun
  · rename_i names hLocate
    split
    · exact .refused nofun
    · rename_i hSlash
      exact writes_fill ⟨_, hLocate, .inr rfl, fun _ => by simpa using hSlash⟩ content

/-- The content of the file that a path leads to. -/
def stored? (disk : Disk) (path : String) : Option Content :=
  match disk.locate path with
  | .ok (.file _ content) => some content
  | _ => none

theorem stored?_put (h : disk.LeadsTo path names) (content : Content) :
    (disk.put names content).stored? path = some content := by
  rw [stored?, locate_put h]

theorem stored?_eq_some_iff :
    disk.stored? path = some content ↔ ∃ names, disk.locate path = .ok (.file names content) := by
  rw [stored?]
  split
  · rename_i names found hLocate
    simp [hLocate]
  · rename_i hOther
    refine ⟨nofun, ?_⟩
    rintro ⟨names, hLocate⟩
    exact (hOther names content hLocate).elim

theorem read_eq_ok_iff {text : String} :
    disk.read path = .ok text ↔ disk.stored? path = some (.text text) := by
  rw [stored?_eq_some_iff, read]
  split <;> simp [*]

theorem stored?_of_write (h : (disk.write path content).1 = .ok ()) :
    (disk.write path content).2.stored? path = some content := by
  have hWrites := writes_write disk path content
  generalize disk.write path content = answer at hWrites h ⊢
  cases hWrites with
  | refused | cut => cases h
  | done leads => exact stored?_put leads content

theorem write_of_refused {fault : FileFault} (h : (disk.write path content).1 = .error fault)
    (hFault : fault ≠ .noSpace) : (disk.write path content).2 = disk := by
  have hWrites := writes_write disk path content
  generalize disk.write path content = answer at hWrites h ⊢
  cases hWrites with
  | refused => rfl
  | done => cases h
  | cut => exact absurd (Except.error.inj h).symm hFault

theorem exists_of_write_noSpace (h : (disk.write path content).1 = .error .noSpace) :
    ∃ rest, rest.IsBeginning content ∧ (disk.write path content).2.stored? path = some rest := by
  have hWrites := writes_write disk path content
  generalize disk.write path content = answer at hWrites h ⊢
  cases hWrites with
  | refused cause => exact absurd (Except.error.inj h) cause
  | done => cases h
  | cut leads obstacle short =>
    exact ⟨_, Content.isBeginning_take short, stored?_put leads _⟩

end Disk

end TemplateBinding
