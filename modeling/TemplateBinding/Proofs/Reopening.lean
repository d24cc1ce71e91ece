import TemplateBinding.Proofs.DocumentReading
import TemplateBinding.Proofs.TemplateFileRuns

/-!
# Opening what was persisted

Edits change bindings but not the shape of a document.  So a template that was opened, edited and
persisted can be opened again unless its new text nests too deep, which happens to edited templates
with as many levels of nodes as a text can have at all.
-/
namespace TemplateBinding
set_option autoImplicit false

universe u v

/-! ## Shapes -/

namespace Forest

variable {α : Type u} {β : Type v}

theorem levels_mapPositions (f : Nat → α → β) (start : Nat) (forest : Forest α) :
    (forest.mapPositions f start).levels = forest.levels := by
  induction forest generalizing start with
  | nil => rfl
  | cons value below rest hBelow hRest => rw [mapPositions, levels, levels, hBelow, hRest]

end Forest

theorem Tree.levels_modify {α : Type u} (edit : α → α) (position : Nat) (tree : Tree α) :
    (tree.modify edit position).levels = tree.levels := by
  rw [modify_eq_mapPositions, levels, levels, mapPositions, Forest.levels_mapPositions]

namespace TemplateFile

variable {disk found left : Disk} {path : String} {file after : TemplateFile} {document : Document}

/-! ## Edits -/

def edited (file : TemplateFile) (edits : List Edit) : TemplateFile := edits.foldl edit file

structure SameShape (file after : TemplateFile) : Prop where
  path : after.path = file.path
  hash : after.persistedHash = file.persistedHash
  levels : after.hierarchy.document.levels = file.hierarchy.document.levels

theorem SameShape.of_modify (file : TemplateFile) (node : NodeId) (change : Record → Record) :
    SameShape file { file with hierarchy := file.hierarchy.modify node change } where
  path := rfl
  hash := rfl
  levels := Tree.levels_modify change node file.hierarchy.document

theorem sameShape_edit (file : TemplateFile) (edit : Edit) : SameShape file (file.edit edit) := by
  cases edit with
  | setKind node kind =>
    rw [TemplateFile.edit]
    cases hKind : file.hierarchy.setKind node kind with
    | error error => exact ⟨rfl, rfl, rfl⟩
    | ok hierarchy =>
      obtain ⟨_, rfl⟩ := Hierarchy.setKind_eq_ok_iff.mp hKind
      exact SameShape.of_modify file node _
  | setBinding node binding =>
    rw [TemplateFile.edit, Hierarchy.setBinding]
    cases file.hierarchy.writable node with
    | error error => exact ⟨rfl, rfl, rfl⟩
    | ok record => exact SameShape.of_modify file node _

theorem sameShape_edited (file : TemplateFile) (edits : List Edit) :
    SameShape file (file.edited edits) := by
  induction edits generalizing file with
  | nil => exact ⟨rfl, rfl, rfl⟩
  | cons edit edits ih =>
    have hFirst := sameShape_edit file edit
    have hOthers := ih (file.edit edit)
    exact ⟨hOthers.path.trans hFirst.path, hOthers.hash.trans hFirst.hash,
      hOthers.levels.trans hFirst.levels⟩

/-! ## Opening -/

def fresh (path : String) (document : Document) : TemplateFile :=
  ⟨path, ⟨document, 0⟩, Sha256.hashText document.print⟩

theorem openAt_eq_ok_iff :
    openAt disk path = .ok file ↔ ∃ text document, disk.read path = .ok text ∧
      Document.parse? text = some document ∧ file = fresh path document := by
  rw [openAt]
  cases hRead : disk.read path with
  | error fault => simp
  | ok text =>
    cases hParse : Document.parse? text with
    | none => simp [hParse]
    | some document => simp [hParse, fresh, eq_comm]

def Reopens (disk : Disk) (path : String) (document : Document) : Prop :=
  ∃ file, openAt disk path = .ok file ∧ file.hierarchy.document = document

theorem reopens_iff_of_read {text : String} (h : disk.read path = .ok text) :
    Reopens disk path document ↔ Document.parse? text = some document := by
  constructor
  · rintro ⟨file, hOpen, rfl⟩
    obtain ⟨other, document, hRead, hParse, rfl⟩ := openAt_eq_ok_iff.mp hOpen
    rw [h] at hRead
    cases hRead
    exact hParse
  · exact fun hParse => ⟨_, openAt_eq_ok_iff.mpr ⟨text, document, h, hParse, rfl⟩, rfl⟩

theorem reopens_iff_of_print (h : disk.read path = .ok document.print) :
    Reopens disk path document ↔ document.levels ≤ 63 := by
  rw [reopens_iff_of_read h, Document.parse?_print, ite_eq_left_iff]
  simp

/-- Nothing is written for a document whose hash is the remembered one. -/
theorem persist_cases (h : file.persist found root = (.ok (), after, left)) :
    after.hierarchy.document = file.hierarchy.document ∧
      (Sha256.hashText file.hierarchy.document.print = file.persistedHash ∧ left = found ∨
        Sha256.hashText file.hierarchy.document.print ≠ file.persistedHash ∧
          left.read file.path = .ok file.hierarchy.document.print) := by
  have hKnown : file.hierarchy.documentAt? root = some file.hierarchy.document :=
    Hierarchy.documentAt?_zero file.hierarchy
  by_cases hHash : Sha256.hashText file.hierarchy.document.print = file.persistedHash
  · rw [persist_of_same hKnown hHash] at h
    cases h
    exact ⟨rfl, .inl ⟨hHash, rfl⟩⟩
  · cases hWrite : found.write file.path (.text file.hierarchy.document.print) with
    | mk answer disk =>
      cases answer with
      | error fault =>
        rw [persist_of_write_error hKnown hHash hWrite] at h
        cases h
      | ok done =>
        have hStored := Disk.stored?_of_write (congrArg Prod.fst hWrite)
        rw [hWrite] at hStored
        rw [persist_of_write hKnown hHash hWrite] at h
        cases h
        exact ⟨rfl, .inr ⟨hHash, Disk.read_eq_ok_iff.mpr hStored⟩⟩

theorem exists_persist_of_write
    (h : (disk.write file.path (.text file.hierarchy.document.print)).1 = .ok ()) :
    ∃ after left, file.persist disk root = (.ok (), after, left) := by
  have hKnown : file.hierarchy.documentAt? root = some file.hierarchy.document :=
    Hierarchy.documentAt?_zero file.hierarchy
  by_cases hHash : Sha256.hashText file.hierarchy.document.print = file.persistedHash
  · exact ⟨_, _, persist_of_same hKnown hHash disk⟩
  · exact ⟨_, _, persist_of_write hKnown hHash (Prod.ext h rfl)⟩

/-- What opening a persisted template comes to: the old text is still there, or the new one must not
nest too deep. -/
theorem reopens_edited_iff (hOpen : openAt disk path = .ok file)
    (hKept : found.read path = disk.read path) (edits : List Edit)
    (hPersist : (file.edited edits).persist found root = (.ok (), after, left)) :
    Reopens left path after.hierarchy.document ↔
      after.hierarchy.document = file.hierarchy.document ∨
        Sha256.hashText after.hierarchy.document.print ≠
          Sha256.hashText file.hierarchy.document.print ∧
        file.hierarchy.document.levels ≤ 63 := by
  obtain ⟨text, document, hRead, hParse, rfl⟩ := openAt_eq_ok_iff.mp hOpen
  obtain ⟨hPath, hHash, hLevels⟩ := sameShape_edited (fresh path document) edits
  obtain ⟨hDocument, hLeft⟩ := persist_cases hPersist
  have hPath : ((fresh path document).edited edits).path = path := hPath
  have hHash : ((fresh path document).edited edits).persistedHash =
      Sha256.hashText (fresh path document).hierarchy.document.print := hHash
  rw [hHash, hPath, ← hDocument] at hLeft
  rw [← hDocument] at hLevels
  rcases hLeft with ⟨hSame, rfl⟩ | ⟨hOther, hWritten⟩
  · rw [reopens_iff_of_read (hKept.trans hRead), hParse, Option.some_inj, eq_comm]
    refine (or_iff_left ?_).symm
    exact fun hOther => hOther.1 hSame
  · rw [reopens_iff_of_print hWritten, hLevels, and_iff_right hOther]
    refine (or_iff_right ?_).symm
    intro hSame
    rw [hSame] at hOther
    exact hOther rfl

/-- A template that was opened, edited and persisted opens with the persisted document exactly if
nothing had to change, or if it has fewer levels than the 64 that a text can have. -/
theorem reopens_persisted (hOpen : openAt disk path = .ok file)
    (hKept : found.read path = disk.read path) (edits : List Edit)
    (hPersist : (file.edited edits).persist found root = (.ok (), after, left)) :
    file.hierarchy.document.levels ≤ 64 ∧
      (Reopens left path after.hierarchy.document ↔
        after.hierarchy.document = file.hierarchy.document ∨
          Sha256.hashText after.hierarchy.document.print ≠
            Sha256.hashText file.hierarchy.document.print ∧
          file.hierarchy.document.levels < 64) := by
  obtain ⟨text, document, _, hParse, hFile⟩ := openAt_eq_ok_iff.mp hOpen
  refine ⟨?_, ?_⟩
  · rw [hFile]
    exact Document.levels_le_of_parse? hParse
  · rw [Nat.lt_succ_iff]
    exact reopens_edited_iff hOpen hKept edits hPersist

theorem reopens_persisted_draft :
    openAt (draftDisk draftText []) "Hud.json" = .ok (draftFile none) ∧
      ∃ after left, ((draftFile none).edited [.setBinding 0 .leaf]).persist
          (draftDisk draftText []) root = (.ok (), after, left) ∧
        after.hierarchy.document = draft (some .leaf) ∧
          Reopens left "Hud.json" after.hierarchy.document := by
  have hWrite : ((draftDisk draftText []).write (draftFile (some .leaf)).path
      (.text (draftFile (some .leaf)).hierarchy.document.print)).1 = .ok () := rfl
  obtain ⟨after, left, hPersist⟩ := exists_persist_of_write hWrite
  have hDocument : after.hierarchy.document = draft (some .leaf) := (persist_cases hPersist).1
  have hHash : Sha256.hashText after.hierarchy.document.print ≠
      Sha256.hashText (draftFile none).hierarchy.document.print := by
    rw [hDocument]
    exact hash_draft_ne
  have hPersist : ((draftFile none).edited [.setBinding 0 .leaf]).persist
      (draftDisk draftText []) root = (.ok (), after, left) := hPersist
  have hReopens := (reopens_persisted openAt_draftDisk rfl [.setBinding 0 .leaf] hPersist).2
  exact ⟨openAt_draftDisk, after, left, hPersist, hDocument,
    hReopens.mpr (.inr ⟨hHash, by decide⟩)⟩

/-! ## A template that is lost -/

def column : Nat → Document
  | 0 => ⟨{ label := "Row" }, .nil⟩
  | count + 1 => ⟨{ label := "Row" }, .ofTrees [column count]⟩

/-- The shortest form of a column: the last node has no list of children. -/
def columnJson : Nat → Json
  | 0 => .object [("label", .string "Row")]
  | count + 1 => .object [("label", .string "Row"), ("children", .array [columnJson count])]

theorem levels_column (count : Nat) : (column count).levels = count + 1 := by
  induction count with
  | zero => rfl
  | succ count ih =>
    rw [Tree.levels] at ih ⊢
    rw [column, Forest.ofTrees, Forest.ofTrees, Forest.levels, ih, Forest.levels, Nat.max_zero]

theorem isPlain_columnJson (count : Nat) : (columnJson count).isPlain = true := by
  induction count with
  | zero => rfl
  | succ count ih => simp [columnJson, Json.isPlain, Json.areMembersPlain, Json.arePlain, ih]

theorem decode_columnJson (count : Nat) :
    Document.decode (2 * count + 1) (columnJson count) = some (column count) := by
  induction count with
  | zero => rfl
  | succ count ih =>
    rw [show 2 * (count + 1) + 1 = 2 * count + 1 + 2 by omega, Document.decode, columnJson]
    simp [Document.decodeNode, Json.Fields.of?, Json.Fields.required, Json.Fields.withDefault,
      Json.Fields.get?, Json.string?, Json.items?, ih, column]

theorem parse?_column : Document.parse? (columnJson 63).pretty = some (column 63) := by
  rw [Document.parse?, Json.read?_pretty (isPlain_columnJson 63), Option.bind_some]
  exact decode_columnJson 63

def columnDisk (text : String) : Disk := { files := [(["Rows.json"], .text text)] }

theorem read_columnDisk (text : String) : (columnDisk text).read "Rows.json" = .ok text := rfl

theorem write_columnDisk (text written : String) :
    ((columnDisk text).write "Rows.json" (.text written)).1 = .ok () := rfl

theorem openAt_columnDisk :
    openAt (columnDisk (columnJson 63).pretty) "Rows.json" = .ok (fresh "Rows.json" (column 63)) :=
  openAt_eq_ok_iff.mpr ⟨_, _, read_columnDisk _, parse?_column, rfl⟩

theorem exists_persist_column (text : String) (binding : Binding) :
    ∃ after left, ((fresh "Rows.json" (column 63)).edited [.setBinding 0 binding]).persist
      (columnDisk text) root = (.ok (), after, left) := by
  let file := (fresh "Rows.json" (column 63)).edited [.setBinding 0 binding]
  exact exists_persist_of_write (write_columnDisk text file.hierarchy.document.print)

theorem not_forall_reopens :
    ¬∀ (disk found left : Disk) (path : String) (file after : TemplateFile) (edits : List Edit),
      openAt disk path = .ok file → found.read path = disk.read path →
      (file.edited edits).persist found root = (.ok (), after, left) →
      Reopens left path after.hierarchy.document := by
  intro hAll
  have hOpen := openAt_columnDisk
  obtain ⟨after, left, hPersist⟩ := exists_persist_column (columnJson 63).pretty .leaf
  have hReopens := hAll _ _ left _ _ after _ hOpen rfl hPersist
  -- With a hash that stays the same nothing is written, and the old document is still there.
  rcases (reopens_edited_iff hOpen rfl _ hPersist).mp hReopens with hSame | ⟨_, hLevels⟩
  · rw [(persist_cases hPersist).1] at hSame
    cases congrArg (fun document => document.root.binding) hSame
  · have hColumn : (fresh "Rows.json" (column 63)).hierarchy.document.levels = 64 :=
      levels_column 63
    omega

end TemplateFile

end TemplateBinding
