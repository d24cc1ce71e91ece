import TemplateBinding.TemplateFile
import TemplateBinding.Proofs.DiskWriting
import TemplateBinding.Proofs.DocumentText
import TemplateBinding.Proofs.HierarchyEdit

/-!
# Runs of a template file

An opened template is edited and persisted again and again.  A write may be refused, and a device
without room breaks it off, which damages the file.  A journal keeps, apart from the template, which
document was last written or opened, how often there was a write, and what a write that broke off
has left in the file.  As long as no two texts of the run have the same hash, the remembered hash
tells exactly whether a document is the latest one.  So no write that matters is skipped; only a
damaged file is not mended by the latest document, but by the next one that is written.
-/
namespace TemplateBinding
set_option autoImplicit false

def Sha256.Separates (texts : List String) : Prop :=
  ∀ first ∈ texts, ∀ second ∈ texts, hashText first = hashText second → first = second

theorem Sha256.Separates.mono {fewer texts : List String} (h : Separates texts)
    (hFewer : fewer ⊆ texts) : Separates fewer :=
  fun first hFirst second hSecond => h first (hFewer hFirst) second (hFewer hSecond)

namespace TemplateFile

inductive Edit where
  | setKind (node : NodeId) (kind : Kind)
  | setBinding (node : NodeId) (binding : Binding)

/-- An edit that fails leaves the file as it was. -/
def edit (file : TemplateFile) : Edit → TemplateFile
  | .setKind node kind =>
    match file.hierarchy.setKind node kind with
    | .ok hierarchy => { file with hierarchy }
    | .error _ => file
  | .setBinding node binding =>
    match file.hierarchy.setBinding node binding with
    | .ok hierarchy => { file with hierarchy }
    | .error _ => file

inductive Event where
  | edit (edit : Edit)
  | persist (root : NodeId)
  /-- Others change the disk, but not the file. -/
  | elsewhere (disk : Disk)

structure Journal where
  /-- The document that was last written or opened. -/
  latest : Document
  writes : Nat := 0
  /-- What is in the file since a write of another document broke off. -/
  damage : Option Content := none

/-- Only a document other than the latest is written. -/
def Journal.persist (journal : Journal) (file : TemplateFile) (disk : Disk) (root : NodeId) :
    Journal :=
  match file.hierarchy.documentAt? root with
  | none => journal
  | some document =>
    if document = journal.latest then journal
    else
      let (answer, left) := disk.write file.path (.text document.print)
      if answer = .ok () then ⟨document, journal.writes + 1, none⟩
      else if answer = .error .noSpace then { journal with damage := left.stored? file.path }
      else journal

structure Usage where
  file : TemplateFile
  disk : Disk
  journal : Journal

namespace Usage

/-- The template is opened and nothing was done yet. -/
def start (file : TemplateFile) (disk : Disk) : Usage :=
  ⟨file, disk, { latest := file.hierarchy.document }⟩

def handle (usage : Usage) : Event → Usage
  | .edit edit => { usage with file := usage.file.edit edit }
  | .persist root =>
    let (_, file, disk) := usage.file.persist usage.disk root
    ⟨file, disk, usage.journal.persist usage.file usage.disk root⟩
  | .elsewhere disk =>
    if disk.stored? usage.file.path = usage.disk.stored? usage.file.path then { usage with disk }
    else usage

def run (usage : Usage) (events : List Event) : Usage := events.foldl handle usage

/-- The texts whose hashes are compared. -/
def textsOf (usage : Usage) : Event → List String
  | .persist root => (usage.file.hierarchy.documentAt? root).toList.map Document.print
  | .edit _ | .elsewhere _ => []

def texts (usage : Usage) : List Event → List String
  | [] => []
  | event :: events => usage.textsOf event ++ (usage.handle event).texts events

/-- The event writes and the device has no room for it. -/
def BreaksOff (usage : Usage) (event : Event) : Prop :=
  ∃ root, event = .persist root ∧
    (usage.file.persist usage.disk root).1 = .error (.persist usage.file.path .noSpace)

def Unbroken (usage : Usage) : List Event → Prop
  | [] => True
  | event :: events => ¬usage.BreaksOff event ∧ (usage.handle event).Unbroken events

theorem unbroken_append (usage : Usage) (events later : List Event) :
    usage.Unbroken (events ++ later) ↔
      usage.Unbroken events ∧ (usage.run events).Unbroken later := by
  induction events generalizing usage with
  | nil => exact (iff_of_eq (true_and _)).symm
  | cons event events ih =>
    rw [List.cons_append, Unbroken, Unbroken, ih, and_assoc]
    rfl

end Usage

/-- The file holds the document, printed or as it was opened. -/
def Holds (path opened : String) (disk : Disk) (document : Document) : Prop :=
  disk.stored? path = some (.text document.print) ∨
    disk.stored? path = some (.text opened) ∧ Document.parse? opened = some document

/-- The remembered hash and the count are those of the journal, and so is what the file holds: the
latest document, or the beginning of another one. -/
structure Usage.Agrees (path opened : String) (usage : Usage) : Prop where
  place : usage.file.path = path
  hash : usage.file.persistedHash = Sha256.hashText usage.journal.latest.print
  count : usage.file.hierarchy.persistCount = usage.journal.writes
  intact : usage.journal.damage = none → Holds path opened usage.disk usage.journal.latest
  damaged : ∀ rest, usage.journal.damage = some rest → usage.disk.stored? path = some rest ∧
    ∃ document, document ≠ usage.journal.latest ∧ rest.IsBeginning (.text document.print)

/-! ## One call -/

def written (file : TemplateFile) (document : Document) : TemplateFile where
  path := file.path
  hierarchy := { file.hierarchy with persistCount := file.hierarchy.persistCount + 1 }
  persistedHash := Sha256.hashText document.print

variable {file : TemplateFile} {disk : Disk} {root : NodeId} {document : Document}
  {path opened : String} {usage : Usage}

theorem persist_of_unknown (h : file.hierarchy.documentAt? root = none) (disk : Disk) :
    file.persist disk root = (.error (.unknownNode root), file, disk) := by
  rw [persist, h]

theorem hierarchy_persist_of_known (h : file.hierarchy.documentAt? root = some document) :
    file.hierarchy.persist root =
      .ok { file.hierarchy with persistCount := file.hierarchy.persistCount + 1 } := by
  obtain ⟨place, hPlace, _⟩ := Option.map_eq_some_iff.mp h
  rw [Hierarchy.persist, hPlace]

section Known

variable (h : file.hierarchy.documentAt? root = some document)
include h

theorem persist_of_same (hSame : Sha256.hashText document.print = file.persistedHash)
    (disk : Disk) : file.persist disk root = (.ok (), file, disk) := by
  rw [persist, h]
  dsimp only
  rw [if_pos hSame]

/-- Once the text is written, nothing can fail any more. -/
theorem persist_of_write {left : Disk}
    (hOther : Sha256.hashText document.print ≠ file.persistedHash)
    (hWrite : disk.write file.path (.text document.print) = (.ok (), left)) :
    file.persist disk root = (.ok (), file.written document, left) := by
  rw [persist, h]
  dsimp only
  rw [if_neg hOther, hWrite]
  dsimp only
  rw [hierarchy_persist_of_known h]
  rfl

theorem persist_of_write_error {left : Disk} {fault : FileFault}
    (hOther : Sha256.hashText document.print ≠ file.persistedHash)
    (hWrite : disk.write file.path (.text document.print) = (.error fault, left)) :
    file.persist disk root = (.error (.persist file.path fault), file, left) := by
  rw [persist, h]
  dsimp only
  rw [if_neg hOther, hWrite]

end Known

theorem Usage.Agrees.hash_eq_iff (h : usage.Agrees path opened)
    (hApart : Sha256.Separates [usage.journal.latest.print, document.print]) :
    Sha256.hashText document.print = usage.file.persistedHash ↔
      document = usage.journal.latest := by
  rw [h.hash]
  constructor
  · intro hHash
    exact Document.print_injective (hApart _ (by simp) _ (by simp) hHash)
  · rintro rfl
    rfl

theorem Usage.Agrees.persist_latest (h : usage.Agrees path opened)
    (hKnown : usage.file.hierarchy.documentAt? root = some usage.journal.latest) (disk : Disk) :
    usage.file.persist disk root = (.ok (), usage.file, disk) :=
  persist_of_same hKnown h.hash.symm disk

/-- How a call to persist ends, with its answer and what it makes of the usage. -/
inductive Ends (path : String) (usage : Usage) (root : NodeId) :
    Except Error Unit → Usage → Prop where
  | unknown (unknown : usage.file.hierarchy.documentAt? root = none) :
      Ends path usage root (.error (.unknownNode root)) usage
  | skipped (known : usage.file.hierarchy.documentAt? root = some usage.journal.latest) :
      Ends path usage root (.ok ()) usage
  | refused {document : Document} {fault : FileFault}
      (known : usage.file.hierarchy.documentAt? root = some document)
      (other : document ≠ usage.journal.latest) :
      Ends path usage root (.error (.persist path fault)) usage
  | cut {document : Document} {rest : Content} {left : Disk}
      (known : usage.file.hierarchy.documentAt? root = some document)
      (other : document ≠ usage.journal.latest)
      (beginning : rest.IsBeginning (.text document.print))
      (stored : left.stored? path = some rest) :
      Ends path usage root (.error (.persist path .noSpace))
        ⟨usage.file, left, { usage.journal with damage := some rest }⟩
  | written {document : Document} {left : Disk}
      (known : usage.file.hierarchy.documentAt? root = some document)
      (other : document ≠ usage.journal.latest)
      (stored : left.stored? path = some (.text document.print)) :
      Ends path usage root (.ok ())
        ⟨usage.file.written document, left, ⟨document, usage.journal.writes + 1, none⟩⟩

theorem Usage.handle_persist {answer : Except Error Unit} {after : TemplateFile} {left : Disk}
    (h : usage.file.persist usage.disk root = (answer, after, left)) :
    usage.handle (.persist root) =
      ⟨after, left, usage.journal.persist usage.file usage.disk root⟩ := by
  rw [Usage.handle, h]

theorem Usage.handle_elsewhere
    (h : disk.stored? usage.file.path = usage.disk.stored? usage.file.path) :
    usage.handle (.elsewhere disk) = { usage with disk } := by
  rw [Usage.handle, if_pos h]

theorem Usage.Agrees.ends (h : usage.Agrees path opened)
    (hApart : Sha256.Separates (usage.journal.latest.print :: usage.textsOf (.persist root))) :
    Ends path usage root (usage.file.persist usage.disk root).1
      (usage.handle (.persist root)) := by
  cases hKnown : usage.file.hierarchy.documentAt? root with
  | none =>
    have hPersist := persist_of_unknown hKnown usage.disk
    rw [Usage.handle_persist hPersist, hPersist, Journal.persist, hKnown]
    exact .unknown hKnown
  | some document =>
    rw [Usage.textsOf, hKnown] at hApart
    by_cases hOther : document = usage.journal.latest
    · subst hOther
      have hPersist := h.persist_latest hKnown usage.disk
      rw [Usage.handle_persist hPersist, hPersist, Journal.persist, hKnown]
      dsimp only
      rw [if_pos rfl]
      exact .skipped hKnown
    · have hHash := mt (h.hash_eq_iff hApart).mp hOther
      cases hWrite : usage.disk.write usage.file.path (.text document.print) with
      | mk answer left =>
        have hJournal : usage.journal.persist usage.file usage.disk root =
            if answer = .ok () then ⟨document, usage.journal.writes + 1, none⟩
            else if answer = .error .noSpace then
              { usage.journal with damage := left.stored? path }
            else usage.journal := by
          rw [Journal.persist, hKnown]
          dsimp only
          rw [if_neg hOther, hWrite, h.place]
        cases answer with
        | ok done =>
          have hPersist := persist_of_write hKnown hHash hWrite
          have hStored := Disk.stored?_of_write (congrArg Prod.fst hWrite)
          rw [hWrite, h.place] at hStored
          rw [Usage.handle_persist hPersist, hPersist, hJournal, if_pos rfl]
          exact .written hKnown hOther hStored
        | error fault =>
          have hPersist := persist_of_write_error hKnown hHash hWrite
          rw [Usage.handle_persist hPersist, hPersist, hJournal, if_neg nofun, h.place]
          by_cases hFault : fault = .noSpace
          · subst hFault
            obtain ⟨rest, hBeginning, hStored⟩ :=
              Disk.exists_of_write_noSpace (congrArg Prod.fst hWrite)
            rw [hWrite, h.place] at hStored
            rw [if_pos rfl, hStored]
            exact .cut hKnown hOther hBeginning hStored
          · have hLeft := Disk.write_of_refused (congrArg Prod.fst hWrite) hFault
            rw [hWrite] at hLeft
            obtain rfl : left = usage.disk := hLeft
            rw [if_neg fun hSame => hFault (Except.error.inj hSame)]
            exact .refused hKnown hOther

/-! ## Runs -/

theorem Usage.Agrees.edited (h : usage.Agrees path opened) {hierarchy : Hierarchy}
    (hCount : hierarchy.persistCount = usage.file.hierarchy.persistCount) :
    Agrees path opened { usage with file := { usage.file with hierarchy } } where
  place := h.place
  hash := h.hash
  count := hCount.trans h.count
  intact := h.intact
  damaged := h.damaged

theorem Usage.Agrees.edit (h : usage.Agrees path opened) (edit : Edit) :
    (usage.handle (.edit edit)).Agrees path opened := by
  cases edit with
  | setKind node kind =>
    rw [Usage.handle, TemplateFile.edit]
    cases hKind : usage.file.hierarchy.setKind node kind with
    | error error => exact h
    | ok hierarchy =>
      refine h.edited ?_
      rw [(Hierarchy.setKind_eq_ok_iff.mp hKind).2]
      rfl
  | setBinding node binding =>
    rw [Usage.handle, TemplateFile.edit, Hierarchy.setBinding]
    cases usage.file.hierarchy.writable node with
    | error error => exact h
    | ok record => exact h.edited rfl

theorem Usage.Agrees.elsewhere (h : usage.Agrees path opened) (disk : Disk) :
    (usage.handle (.elsewhere disk)).Agrees path opened := by
  rw [Usage.handle]
  split
  · rename_i hKept
    rw [h.place] at hKept
    exact ⟨h.place, h.hash, h.count,
      fun hIntact => by simpa only [Holds, hKept] using h.intact hIntact,
      fun rest hRest => by simpa only [hKept] using h.damaged rest hRest⟩
  · exact h

theorem Ends.agrees {answer : Except Error Unit} {next : Usage}
    (h : Ends path usage root answer next) (hAgrees : usage.Agrees path opened) :
    next.Agrees path opened := by
  cases h with
  | unknown | skipped | refused => exact hAgrees
  | @cut document rest left known other beginning stored =>
    refine ⟨hAgrees.place, hAgrees.hash, hAgrees.count, nofun, fun found hFound => ?_⟩
    obtain rfl := Option.some.inj hFound
    exact ⟨stored, document, other, beginning⟩
  | written known other stored =>
    exact ⟨hAgrees.place, rfl, congrArg (· + 1) hAgrees.count, fun _ => .inl stored, nofun⟩

/-- No other text than those of the call becomes the latest. -/
theorem Ends.latest_mem {answer : Except Error Unit} {next : Usage}
    (h : Ends path usage root answer next) : next.journal.latest.print ∈
      usage.journal.latest.print :: usage.textsOf (.persist root) := by
  cases h with
  | unknown | skipped | refused | cut => exact List.mem_cons_self
  | written known =>
    refine List.mem_cons_of_mem _ ?_
    rw [Usage.textsOf, known]
    exact List.mem_singleton_self _

theorem Usage.Agrees.handle (h : usage.Agrees path opened) (event : Event)
    (hApart : Sha256.Separates (usage.journal.latest.print :: usage.textsOf event)) :
    (usage.handle event).Agrees path opened ∧
      (usage.handle event).journal.latest.print ∈
        usage.journal.latest.print :: usage.textsOf event := by
  cases event with
  | edit edit => exact ⟨h.edit edit, List.mem_cons_self⟩
  | persist root => exact ⟨(h.ends hApart).agrees h, (h.ends hApart).latest_mem⟩
  | elsewhere disk =>
    refine ⟨h.elsewhere disk, ?_⟩
    rw [Usage.handle]
    split <;> exact List.mem_cons_self

/-- Only a write that breaks off does damage. -/
theorem Usage.Agrees.damage_handle (h : usage.Agrees path opened) (event : Event)
    (hApart : Sha256.Separates (usage.journal.latest.print :: usage.textsOf event))
    (hIntact : usage.journal.damage = none) (hEvent : ¬usage.BreaksOff event) :
    (usage.handle event).journal.damage = none := by
  cases event with
  | edit edit => exact hIntact
  | elsewhere disk =>
    rw [Usage.handle]
    split <;> exact hIntact
  | persist root =>
    have hEnds := h.ends hApart
    generalize hAnswer : (usage.file.persist usage.disk root).1 = answer at hEnds
    generalize usage.handle (.persist root) = next at hEnds ⊢
    cases hEnds with
    | unknown | skipped | refused => exact hIntact
    | cut => exact absurd ⟨root, rfl, h.place ▸ hAnswer⟩ hEvent
    | written => rfl

theorem Usage.Agrees.run (h : usage.Agrees path opened) (events later : List Event)
    (hApart : Sha256.Separates
      (usage.journal.latest.print :: usage.texts (events ++ later))) :
    (usage.run events).Agrees path opened ∧
      Sha256.Separates
        ((usage.run events).journal.latest.print :: (usage.run events).texts later) ∧
      (usage.journal.damage = none → usage.Unbroken events →
        (usage.run events).journal.damage = none) := by
  induction events generalizing usage with
  | nil => exact ⟨h, hApart, fun hIntact _ => hIntact⟩
  | cons event events ih =>
    rw [List.cons_append, Usage.texts, ← List.cons_append] at hApart
    have hEvent := hApart.mono (List.subset_append_left _ _)
    obtain ⟨hNext, hLatest⟩ := h.handle event hEvent
    have hLater := hApart.mono (List.cons_subset.mpr
      ⟨List.mem_append_left _ hLatest, List.subset_append_right _ _⟩)
    obtain ⟨hLast, hRest, hDamage⟩ := ih hNext hLater
    exact ⟨hLast, hRest, fun hIntact hUnbroken =>
      hDamage (h.damage_handle event hEvent hIntact hUnbroken.1) hUnbroken.2⟩

theorem agrees_start (hRead : disk.read path = .ok opened)
    (hOpen : openAt disk path = .ok file) : (Usage.start file disk).Agrees path opened := by
  rw [openAt, hRead] at hOpen
  dsimp only at hOpen
  cases hParse : Document.parse? opened with
  | none =>
    rw [hParse] at hOpen
    cases hOpen
  | some document =>
    rw [hParse] at hOpen
    cases hOpen
    exact ⟨rfl, rfl, rfl, fun _ => .inr ⟨Disk.read_eq_ok_iff.mp hRead, hParse⟩, nofun⟩

/-- What a call to persist achieves. -/
structure Faithful (path opened : String) (usage : Usage) (root : NodeId) : Prop where
  count : usage.file.hierarchy.persistCount = usage.journal.writes
  /-- The file then holds the document, printed or as opened, unless a write of another document
  broke off before and this is the latest one. -/
  kept : (usage.file.persist usage.disk root).1 = .ok () →
    let next := usage.handle (.persist root)
    next.file.hierarchy.persistCount = next.journal.writes ∧
      ∃ document, usage.file.hierarchy.documentAt? root = some document ∧
        (Holds path opened next.disk document ∨
          usage.journal.damage.isSome ∧ document = usage.journal.latest ∧ next = usage)
  skipped : usage.file.hierarchy.documentAt? root = some usage.journal.latest →
    usage.file.persist usage.disk root = (.ok (), usage.file, usage.disk)
  /-- Any other document is written as soon as a disk allows it, and that mends the file. -/
  tried : ∀ document, usage.file.hierarchy.documentAt? root = some document →
    document ≠ usage.journal.latest → ∀ again : Disk,
    (again.write path (.text document.print)).1 = .ok () →
      ∃ after left, usage.file.persist again root = (.ok (), after, left) ∧
        left.stored? path = some (.text document.print) ∧
          after.hierarchy.persistCount = usage.journal.writes + 1
  /-- The template stays as it was, and so does the disk unless it was full.  A document that could
  not be written is not the latest one. -/
  failed : ∀ error, (usage.file.persist usage.disk root).1 = .error error →
    let next := usage.handle (.persist root)
    next.file = usage.file ∧ next.journal.latest = usage.journal.latest ∧
      (∀ document, usage.file.hierarchy.documentAt? root = some document →
        document ≠ usage.journal.latest) ∧
      (next = usage ∨ error = .persist path .noSpace ∧ ∃ document rest,
        usage.file.hierarchy.documentAt? root = some document ∧
          rest.IsBeginning (.text document.print) ∧ next.disk.stored? path = some rest)
  /-- Damage is what a write that broke off has left of its text. -/
  damaged : ∀ rest, usage.journal.damage = some rest → usage.disk.stored? path = some rest ∧
    ∃ document, document ≠ usage.journal.latest ∧ rest.IsBeginning (.text document.print)

theorem Ends.kept {next : Usage} (h : Ends path usage root (.ok ()) next)
    (hAgrees : usage.Agrees path opened) :
    ∃ document, usage.file.hierarchy.documentAt? root = some document ∧
      (Holds path opened next.disk document ∨
        usage.journal.damage.isSome ∧ document = usage.journal.latest ∧ next = usage) := by
  cases h with
  | skipped known =>
    refine ⟨_, known, ?_⟩
    cases hDamage : usage.journal.damage with
    | none => exact .inl (hAgrees.intact hDamage)
    | some rest => exact .inr ⟨rfl, rfl, rfl⟩
  | @written document left known other stored => exact ⟨document, known, .inl (.inl stored)⟩

theorem Ends.failed {error : Error} {next : Usage} (h : Ends path usage root (.error error) next) :
    next.file = usage.file ∧ next.journal.latest = usage.journal.latest ∧
      (∀ document, usage.file.hierarchy.documentAt? root = some document →
        document ≠ usage.journal.latest) ∧
      (next = usage ∨ error = .persist path .noSpace ∧ ∃ document rest,
        usage.file.hierarchy.documentAt? root = some document ∧
          rest.IsBeginning (.text document.print) ∧ next.disk.stored? path = some rest) := by
  cases h with
  | unknown unknown => exact ⟨rfl, rfl, by simp [unknown], .inl rfl⟩
  | refused known other =>
    refine ⟨rfl, rfl, fun document hKnown => ?_, .inl rfl⟩
    exact Option.some.inj (known.symm.trans hKnown) ▸ other
  | cut known other beginning stored =>
    refine ⟨rfl, rfl, fun document hKnown => ?_, .inr ⟨rfl, _, _, known, beginning, stored⟩⟩
    exact Option.some.inj (known.symm.trans hKnown) ▸ other

theorem Usage.Agrees.faithful (h : usage.Agrees path opened)
    (hApart : Sha256.Separates (usage.journal.latest.print :: usage.textsOf (.persist root))) :
    Faithful path opened usage root where
  count := h.count
  kept hOk := by
    have hEnds := h.ends hApart
    rw [hOk] at hEnds
    exact ⟨(hEnds.agrees h).count, hEnds.kept h⟩
  skipped hKnown := h.persist_latest hKnown usage.disk
  tried := by
    intro document hKnown hOther again hWrite
    rw [Usage.textsOf, hKnown] at hApart
    have hHash := mt (h.hash_eq_iff hApart).mp hOther
    rw [← h.place] at hWrite ⊢
    exact ⟨_, _, persist_of_write hKnown hHash (Prod.ext hWrite rfl), Disk.stored?_of_write hWrite,
      congrArg (· + 1) h.count⟩
  failed error hError := by
    have hEnds := h.ends hApart
    rw [hError] at hEnds
    exact hEnds.failed
  damaged := h.damaged

/-- What a call achieves if no write breaks off, neither in it nor before. -/
structure Lossless (path opened : String) (usage : Usage) (root : NodeId) : Prop where
  intact : usage.journal.damage = none
  kept : (usage.file.persist usage.disk root).1 = .ok () →
    ∃ document, usage.file.hierarchy.documentAt? root = some document ∧
      Holds path opened (usage.handle (.persist root)).disk document
  failed : ∀ error, (usage.file.persist usage.disk root).1 = .error error →
    usage.handle (.persist root) = usage

theorem Usage.Agrees.lossless (h : usage.Agrees path opened)
    (hFaithful : Faithful path opened usage root) (hIntact : usage.journal.damage = none)
    (hUnbroken : ¬usage.BreaksOff (.persist root)) : Lossless path opened usage root where
  intact := hIntact
  kept hOk := by
    obtain ⟨-, document, hKnown, hHolds | ⟨hDamaged, -, -⟩⟩ := hFaithful.kept hOk
    · exact ⟨document, hKnown, hHolds⟩
    · rw [hIntact] at hDamaged
      cases hDamaged
  failed error hError := by
    obtain ⟨-, -, -, hSame | ⟨rfl, -⟩⟩ := hFaithful.failed error hError
    · exact hSame
    · exact absurd ⟨root, rfl, h.place ▸ hError⟩ hUnbroken

theorem Usage.not_breaksOff_of_ok (h : (usage.file.persist usage.disk root).1 = .ok ()) :
    ¬usage.BreaksOff (.persist root) := by
  rintro ⟨other, hRoot, hError⟩
  cases hRoot
  rw [h] at hError
  cases hError

def draftText : String := "\x7b\"label\":\"Hud\"\x7d"

def draft (binding : Option Binding) : Document := ⟨{ label := "Hud", binding }, .nil⟩

def draftFile (binding : Option Binding) : TemplateFile :=
  ⟨"Hud.json", ⟨draft binding, 0⟩, Sha256.hashText (draft none).print⟩

/-- The file may be forbidden, or the device may be almost full. -/
def draftDisk (text : String) (obstacles : List (List String × Obstacle)) : Disk where
  files := [(["Hud.json"], .text text)]
  obstacles := obstacles

def fullDisk (text : String) : Disk := draftDisk text [(["Hud.json"], .room 5)]

theorem stored?_draftDisk (text : String) (obstacles : List (List String × Obstacle)) :
    (draftDisk text obstacles).stored? "Hud.json" = some (.text text) := rfl

/-- What the device has room for. -/
def brokenText : String := "\x7b\n  \""

/-- Nothing to write, then an edit and a write that breaks off, and then there is room again. -/
def draftEvents : List Event :=
  [.persist 0, .edit (.setBinding 0 .leaf), .elsewhere (fullDisk draftText), .persist 0,
    .elsewhere (draftDisk brokenText [])]

theorem openAt_draftDisk : openAt (draftDisk draftText []) "Hud.json" = .ok (draftFile none) := by
  have hRead : (draftDisk draftText []).read "Hud.json" = .ok draftText := by decide
  have hParse : Document.parse? draftText = some (draft none) := by decide +kernel
  rw [openAt, hRead]
  dsimp only
  rw [hParse]
  rfl

theorem documentAt?_draftFile (binding : Option Binding) :
    (draftFile binding).hierarchy.documentAt? 0 = some (draft binding) := rfl

theorem hash_draft_ne :
    Sha256.hashText (draft (some .leaf)).print ≠ Sha256.hashText (draft none).print := by
  decide +kernel

theorem write_fullDisk : (fullDisk draftText).write "Hud.json" (.text (draft (some .leaf)).print) =
    (.error .noSpace, fullDisk brokenText) := by decide +kernel

theorem textsOf_draftFile (binding : Option Binding) (disk : Disk) (journal : Journal) :
    Usage.textsOf ⟨draftFile binding, disk, journal⟩ (.persist 0) = [(draft binding).print] := rfl

/-- The journal of the draft until it is written. -/
def draftJournal (damage : Option Content) : Journal := { latest := draft none, damage }

theorem handle_draft_skipped (disk : Disk) (damage : Option Content) :
    Usage.handle ⟨draftFile none, disk, draftJournal damage⟩ (.persist 0) =
      ⟨draftFile none, disk, draftJournal damage⟩ := by
  rw [Usage.handle_persist (persist_of_same (documentAt?_draftFile none) rfl disk),
    Journal.persist, documentAt?_draftFile]
  dsimp only
  rw [if_pos]
  rfl

theorem handle_draft_broken :
    Usage.handle ⟨draftFile (some .leaf), fullDisk draftText, draftJournal none⟩ (.persist 0) =
      ⟨draftFile (some .leaf), fullDisk brokenText, draftJournal (some (.text brokenText))⟩ := by
  have hKnown := documentAt?_draftFile (some .leaf)
  have hWrite : (fullDisk draftText).write (draftFile (some .leaf)).path
      (.text (draft (some .leaf)).print) = (.error .noSpace, fullDisk brokenText) := write_fullDisk
  rw [Usage.handle_persist (persist_of_write_error hKnown hash_draft_ne hWrite), Journal.persist,
    hKnown]
  dsimp only
  rw [hWrite, if_neg]
  · rfl
  · exact nofun

theorem run_draftEvents :
    (Usage.start (draftFile none) (draftDisk draftText [])).run draftEvents =
        ⟨draftFile (some .leaf), draftDisk brokenText [], draftJournal (some (.text brokenText))⟩ ∧
      (Usage.start (draftFile none) (draftDisk draftText [])).texts
        (draftEvents ++ [.persist 0]) =
          [(draft none).print, (draft (some .leaf)).print, (draft (some .leaf)).print] := by
  have hStart : Usage.start (draftFile none) (draftDisk draftText []) =
      ⟨draftFile none, draftDisk draftText [], draftJournal none⟩ := rfl
  have hEdited : Usage.handle ⟨draftFile none, draftDisk draftText [], draftJournal none⟩
      (.edit (.setBinding 0 .leaf)) =
        ⟨draftFile (some .leaf), draftDisk draftText [], draftJournal none⟩ := rfl
  have hFull : Usage.handle ⟨draftFile (some .leaf), draftDisk draftText [], draftJournal none⟩
      (.elsewhere (fullDisk draftText)) =
        ⟨draftFile (some .leaf), fullDisk draftText, draftJournal none⟩ :=
    Usage.handle_elsewhere ((stored?_draftDisk _ _).trans (stored?_draftDisk _ _).symm)
  have hRoom (damage : Option Content) :
      Usage.handle ⟨draftFile (some .leaf), fullDisk brokenText, draftJournal damage⟩
        (.elsewhere (draftDisk brokenText [])) =
          ⟨draftFile (some .leaf), draftDisk brokenText [], draftJournal damage⟩ :=
    Usage.handle_elsewhere ((stored?_draftDisk _ _).trans (stored?_draftDisk _ _).symm)
  constructor
  · simp only [draftEvents, Usage.run, List.foldl_cons, List.foldl_nil, hStart, hEdited, hFull,
      hRoom, handle_draft_skipped, handle_draft_broken]
  · simp only [draftEvents, List.cons_append, List.nil_append, Usage.texts, hStart, hEdited, hFull,
      hRoom, handle_draft_skipped, handle_draft_broken, textsOf_draftFile]
    rfl

theorem separates_draft : Sha256.Separates
    [(draft none).print, (draft none).print, (draft (some .leaf)).print,
      (draft (some .leaf)).print] := by
  intro first hFirst second hSecond hHash
  have hTwo {text : String} (h : text ∈ [(draft none).print, (draft none).print,
      (draft (some .leaf)).print, (draft (some .leaf)).print]) :
      text = (draft none).print ∨ text = (draft (some .leaf)).print := by
    simpa only [List.mem_cons, List.not_mem_nil, or_false, or_self_left, or_self] using h
  rcases hTwo hFirst with rfl | rfl <;> rcases hTwo hSecond with rfl | rfl
  · rfl
  · exact absurd hHash.symm hash_draft_ne
  · exact absurd hHash hash_draft_ne
  · rfl

/-- The run without the full device. -/
def calmEvents : List Event := [.persist 0, .edit (.setBinding 0 .leaf)]

theorem run_calmEvents :
    (Usage.start (draftFile none) (draftDisk draftText [])).run calmEvents =
        ⟨draftFile (some .leaf), draftDisk draftText [], draftJournal none⟩ ∧
      (Usage.start (draftFile none) (draftDisk draftText [])).texts
        (calmEvents ++ [.persist 0]) = [(draft none).print, (draft (some .leaf)).print] := by
  have hStart : Usage.start (draftFile none) (draftDisk draftText []) =
      ⟨draftFile none, draftDisk draftText [], draftJournal none⟩ := rfl
  have hEdited : Usage.handle ⟨draftFile none, draftDisk draftText [], draftJournal none⟩
      (.edit (.setBinding 0 .leaf)) =
        ⟨draftFile (some .leaf), draftDisk draftText [], draftJournal none⟩ := rfl
  constructor
  · simp only [calmEvents, Usage.run, List.foldl_cons, List.foldl_nil, hStart, hEdited,
      handle_draft_skipped]
  · simp only [calmEvents, List.cons_append, List.nil_append, Usage.texts, hStart, hEdited,
      handle_draft_skipped, textsOf_draftFile]
    rfl

theorem unbroken_calmEvents :
    (Usage.start (draftFile none) (draftDisk draftText [])).Unbroken
      (calmEvents ++ [.persist 0]) := by
  have hSkipped : ((draftFile none).persist (draftDisk draftText []) 0).1 = .ok () := by
    rw [persist_of_same (documentAt?_draftFile none) rfl]
  have hWrite : ((draftDisk draftText []).write (draftFile (some .leaf)).path
      (.text (draft (some .leaf)).print)).1 = .ok () := rfl
  have hWritten : ((draftFile (some .leaf)).persist (draftDisk draftText []) 0).1 = .ok () := by
    rw [persist_of_write (documentAt?_draftFile (some .leaf)) hash_draft_ne (Prod.ext hWrite rfl)]
  refine (Usage.unbroken_append _ _ _).mpr ⟨⟨?_, ?_, trivial⟩, ?_⟩
  · exact Usage.not_breaksOff_of_ok hSkipped
  · rintro ⟨root, hEvent, -⟩
    cases hEvent
  · rw [run_calmEvents.1]
    exact ⟨Usage.not_breaksOff_of_ok hWritten, trivial⟩

end TemplateFile

end TemplateBinding
