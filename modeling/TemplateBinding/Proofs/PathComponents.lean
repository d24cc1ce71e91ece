import Mathlib.Data.List.Induction
import TemplateBinding.Artifact.PathName

/-!
# Components of a path

A path is taken apart at its slashes, and only its beginning is read in a way of its own.  So what
follows a slash adds its own steps to the components in front, and the directory part of a path has
all its components but the last.
-/
namespace TemplateBinding.PathName
set_option autoImplicit false

variable {text left right piece head : List Char} {parts later : List (List Char)}
  {path name directory : String}

/-! ## Pieces -/

theorem exists_pieces_cons (text : List Char) : ∃ piece later, pieces text = piece :: later := by
  cases text with
  | nil => exact ⟨[], [], rfl⟩
  | cons c rest =>
    rw [pieces]
    split
    · exact ⟨_, _, rfl⟩
    · split <;> exact ⟨_, _, rfl⟩

theorem pieces_append_cons (left right : List Char) :
    pieces (left ++ '/' :: right) = pieces left ++ pieces right := by
  induction left with
  | nil => rfl
  | cons c left ih =>
    obtain ⟨piece, later, hPieces⟩ := exists_pieces_cons left
    rw [List.cons_append, pieces, pieces, ih, hPieces]
    split <;> rfl

theorem pieces_of_not_mem (h : '/' ∉ text) : pieces text = [text] := by
  induction text with
  | nil => rfl
  | cons c text ih =>
    obtain ⟨hFirst, hRest⟩ := not_or.mp (mt List.mem_cons.mpr h)
    rw [pieces, if_neg (Ne.symm hFirst), ih hRest]

theorem not_mem_of_mem_pieces (h : piece ∈ pieces text) : '/' ∉ piece := by
  induction text generalizing piece with
  | nil =>
    obtain rfl := List.mem_singleton.mp h
    exact List.not_mem_nil
  | cons c text ih =>
    obtain ⟨first, later, hPieces⟩ := exists_pieces_cons text
    rw [hPieces] at ih
    rw [pieces, hPieces] at h
    split at h
    · rcases List.mem_cons.mp h with rfl | hLater
      · exact List.not_mem_nil
      · exact ih hLater
    · rename_i hChar
      rcases List.mem_cons.mp h with rfl | hLater
      · simp [Ne.symm hChar, ih List.mem_cons_self]
      · exact ih (List.mem_cons_of_mem first hLater)

theorem joinPieces_cons_cons (piece next : List Char) (later : List (List Char)) :
    joinPieces (piece :: next :: later) = piece ++ '/' :: joinPieces (next :: later) := by
  rw [joinPieces, List.intercalate_cons_cons]
  simp [joinPieces]

theorem joinPieces_singleton (piece : List Char) : joinPieces [piece] = piece := by
  simp [joinPieces]

theorem pieces_joinPieces (hParts : parts ≠ []) (hFlat : ∀ piece ∈ parts, '/' ∉ piece) :
    pieces (joinPieces parts) = parts := by
  induction parts with
  | nil => exact absurd rfl hParts
  | cons piece later ih =>
    have hPiece := pieces_of_not_mem (hFlat piece List.mem_cons_self)
    cases later with
    | nil => rw [joinPieces_singleton, hPiece]
    | cons next later =>
      rw [joinPieces_cons_cons, pieces_append_cons, hPiece,
        ih (List.cons_ne_nil _ _) fun other hOther => hFlat other (List.mem_cons_of_mem _ hOther)]
      rfl

theorem joinPieces_pieces (text : List Char) : joinPieces (pieces text) = text := by
  induction text with
  | nil => rfl
  | cons c text ih =>
    obtain ⟨piece, later, hPieces⟩ := exists_pieces_cons text
    rw [hPieces] at ih
    rw [pieces, hPieces]
    split
    · rename_i hChar
      rw [joinPieces_cons_cons, ih, hChar]
      rfl
    · cases later with
      | nil =>
        rw [joinPieces_singleton] at ih
        rw [joinPieces_singleton, ih]
      | cons next later =>
        rw [joinPieces_cons_cons] at ih
        rw [joinPieces_cons_cons, List.cons_append, ih]

/-- What is appended without a slash goes to the last piece. -/
theorem exists_pieces_concat (left : List Char) (hRight : '/' ∉ right) :
    ∃ earlier last, pieces left = earlier ++ [last] ∧
      pieces (left ++ right) = earlier ++ [last ++ right] := by
  induction left with
  | nil => exact ⟨[], [], rfl, pieces_of_not_mem hRight⟩
  | cons c left ih =>
    obtain ⟨earlier, last, hLeft, hBoth⟩ := ih
    rw [List.cons_append, pieces, pieces, hLeft, hBoth]
    split
    · exact ⟨[] :: earlier, last, rfl, rfl⟩
    · cases earlier with
      | nil => exact ⟨[], c :: last, rfl, rfl⟩
      | cons first earlier => exact ⟨(c :: first) :: earlier, last, rfl, rfl⟩

theorem mem_of_mem_pieces {c : Char} (hPiece : piece ∈ pieces text) (hChar : c ∈ piece) :
    c ∈ text := by
  induction text generalizing piece with
  | nil =>
    obtain rfl := List.mem_singleton.mp hPiece
    exact hChar
  | cons d text ih =>
    obtain ⟨first, later, hPieces⟩ := exists_pieces_cons text
    rw [hPieces] at ih
    rw [pieces, hPieces] at hPiece
    split at hPiece
    · rcases List.mem_cons.mp hPiece with rfl | hLater
      · cases hChar
      · exact List.mem_cons_of_mem d (ih hLater hChar)
    · rcases List.mem_cons.mp hPiece with rfl | hLater
      · rcases List.mem_cons.mp hChar with rfl | hIn
        · exact List.mem_cons_self
        · exact List.mem_cons_of_mem d (ih List.mem_cons_self hIn)
      · exact List.mem_cons_of_mem d (ih (List.mem_cons_of_mem first hLater) hChar)

theorem exists_mem_pieces {c : Char} (hSlash : c ≠ '/') (h : c ∈ text) :
    ∃ piece ∈ pieces text, c ∈ piece := by
  induction text with
  | nil => cases h
  | cons d text ih =>
    obtain ⟨first, later, hPieces⟩ := exists_pieces_cons text
    rw [hPieces] at ih
    rw [pieces, hPieces]
    split
    · rename_i hFirst
      obtain ⟨piece, hPiece, hIn⟩ := ih ((List.mem_cons.mp h).resolve_left (hFirst ▸ hSlash))
      exact ⟨piece, List.mem_cons_of_mem [] hPiece, hIn⟩
    · rcases List.mem_cons.mp h with rfl | hRest
      · exact ⟨c :: first, List.mem_cons_self, List.mem_cons_self⟩
      · obtain ⟨piece, hPiece, hIn⟩ := ih hRest
        rcases List.mem_cons.mp hPiece with rfl | hLater
        · exact ⟨d :: piece, List.mem_cons_self, List.mem_cons_of_mem d hIn⟩
        · exact ⟨piece, List.mem_cons_of_mem _ hLater, hIn⟩

/-! ## Steps -/

/-- The steps that the pieces of a text take. -/
def stepsOf (pieces : List (List Char)) : List Component :=
  (pieces.filter fun piece => !isIdle piece).map ofPiece

/-- What a text adds to the components of a path it is appended to. -/
def steps (text : String) : List Component := stepsOf (pieces text.toList)

/-- What the beginning of a path is read as. -/
def headComponents (head : List Char) : List Component :=
  match head with
  | '/' :: _ => [.root]
  | '.' :: _ => [.current]
  | _ => []

theorem name_not_mem_headComponents (head name : List Char) :
    Component.name name ∉ headComponents head := by
  rw [headComponents.eq_def]
  split <;> simp

theorem components_eq (path : String) : components path =
    headComponents (splitHead path.toList).1 ++ stepsOf (splitHead path.toList).2 := rfl

theorem stepsOf_append (first second : List (List Char)) :
    stepsOf (first ++ second) = stepsOf first ++ stepsOf second := by
  rw [stepsOf, List.filter_append, List.map_append, stepsOf, stepsOf]

theorem stepsOf_cons_of_idle (h : isIdle piece = true) :
    stepsOf (piece :: later) = stepsOf later := by
  rw [stepsOf, List.filter_cons_of_neg (by simp [h]), stepsOf]

theorem stepsOf_singleton (h : isIdle piece = false) : stepsOf [piece] = [ofPiece piece] := by
  rw [stepsOf, List.filter_cons_of_pos (by simp [h])]
  rfl

theorem stepsOf_eq_nil (h : ∀ piece ∈ parts, isIdle piece = true) : stepsOf parts = [] := by
  rw [stepsOf, List.filter_eq_nil_iff.mpr fun piece hPiece => by simp [h piece hPiece]]
  rfl

theorem splitHead_append (hLeft : left ≠ []) (right : List Char) :
    splitHead (left ++ '/' :: right) =
      ((splitHead left).1, (splitHead left).2 ++ pieces right) := by
  rw [splitHead.eq_def left]
  split
  · exact congrArg _ (pieces_append_cons _ right)
  · rfl
  · exact congrArg (fun parts => (['.'], [] :: parts)) (pieces_append_cons _ right)
  · rename_i hRoot hDot hDotted
    rw [← pieces_append_cons, splitHead]
    · intro rest h
      cases left with
      | nil => exact hLeft rfl
      | cons c left => exact hRoot left (by rw [(List.cons.inj h).1])
    · intro h
      have hLength := congrArg List.length h
      have hPositive := List.length_pos_iff.mpr hLeft
      simp only [List.length_append, List.length_cons, List.length_nil] at hLength
      omega
    · intro rest h
      cases left with
      | nil => exact hLeft rfl
      | cons c left =>
        obtain ⟨hFirst, hRest⟩ := List.cons.inj h
        cases left with
        | nil => exact hDot (by rw [hFirst])
        | cons d left => exact hDotted left (by rw [hFirst, (List.cons.inj hRest).1])

theorem toList_append_slash (path text : String) :
    (path ++ "/" ++ text).toList = path.toList ++ '/' :: text.toList := by
  simp only [String.toList_append, List.append_assoc]
  rfl

theorem append_slash_ne_empty (path text : String) : path ++ "/" ++ text ≠ "" := by
  rw [ne_eq, ← String.toList_eq_nil_iff, toList_append_slash]
  simp

theorem components_append (hPath : path ≠ "") (text : String) :
    components (path ++ "/" ++ text) = components path ++ steps text := by
  have hLeft : path.toList ≠ [] := fun h => hPath (String.toList_eq_nil_iff.mp h)
  rw [components_eq, components_eq, toList_append_slash, splitHead_append hLeft, stepsOf_append,
    steps, List.append_assoc]

/-- Slashes alone take no step. -/
theorem stepsOf_pieces_eq_nil (h : ∀ c ∈ text, c = '/') : stepsOf (pieces text) = [] := by
  refine stepsOf_eq_nil fun piece hPiece => ?_
  have hEmpty : piece = [] := by
    refine List.eq_nil_iff_forall_not_mem.mpr fun c hIn => ?_
    exact not_mem_of_mem_pieces hPiece (h c (mem_of_mem_pieces hPiece hIn) ▸ hIn)
  rw [hEmpty]
  rfl

/-- A text that can be the name of an entry in a directory. -/
structure IsName (name : String) : Prop where
  nonempty : name ≠ ""
  flat : '/' ∉ name.toList
  notCurrent : name ≠ "."
  notParent : name ≠ ".."

instance (name : String) : Decidable (IsName name) :=
  decidable_of_iff (name ≠ "" ∧ '/' ∉ name.toList ∧ name ≠ "." ∧ name ≠ "..")
    ⟨fun h => ⟨h.1, h.2.1, h.2.2.1, h.2.2.2⟩,
      fun h => ⟨h.nonempty, h.flat, h.notCurrent, h.notParent⟩⟩

/-- A name is a single piece that leads into an entry of the directory. -/
theorem isName_iff : IsName name ↔
    '/' ∉ name.toList ∧ isIdle name.toList = false ∧ name.toList ≠ ['.', '.'] := by
  have hSpelled (text : String) : name = text ↔ name.toList = text.toList :=
    String.toList_inj.symm
  constructor
  · rintro ⟨hNonempty, hFlat, hCurrent, hParent⟩
    rw [ne_eq, hSpelled] at hNonempty hCurrent hParent
    refine ⟨hFlat, ?_, hParent⟩
    rw [isIdle, Bool.or_eq_false_iff, beq_eq_false_iff_ne, beq_eq_false_iff_ne]
    exact ⟨hNonempty, hCurrent⟩
  · rintro ⟨hFlat, hIdle, hParent⟩
    rw [isIdle, Bool.or_eq_false_iff, beq_eq_false_iff_ne, beq_eq_false_iff_ne] at hIdle
    exact ⟨mt (hSpelled "").mp hIdle.1, hFlat, mt (hSpelled ".").mp hIdle.2,
      mt (hSpelled "..").mp hParent⟩

theorem IsName.toList_ne_nil (hName : IsName name) : name.toList ≠ [] :=
  fun h => hName.nonempty (String.toList_eq_nil_iff.mp h)

theorem IsName.isIdle_eq (hName : IsName name) : isIdle name.toList = false :=
  (isName_iff.mp hName).2.1

theorem IsName.pieces_eq (hName : IsName name) : pieces name.toList = [name.toList] :=
  pieces_of_not_mem hName.flat

theorem IsName.steps_eq (hName : IsName name) : steps name = [.name name.toList] := by
  rw [steps, hName.pieces_eq, stepsOf_singleton hName.isIdle_eq, ofPiece,
    if_neg (isName_iff.mp hName).2.2]

theorem IsName.components_append (hName : IsName name) (hPath : path ≠ "") :
    components (path ++ "/" ++ name) = components path ++ [.name name.toList] := by
  rw [PathName.components_append hPath, hName.steps_eq]

theorem stepsOf_splitHead (text : List Char) :
    stepsOf (splitHead text).2 = stepsOf (pieces text) := by
  rw [splitHead.eq_def]
  split
  · exact (stepsOf_cons_of_idle rfl).symm
  · rfl
  · rename_i rest
    exact (congrArg stepsOf (pieces_append_cons ['.'] rest)).symm
  · rfl

theorem components_eq_steps (path : String) :
    components path = headComponents (splitHead path.toList).1 ++ steps path := by
  rw [components_eq, stepsOf_splitHead, steps]

theorem name_mem_components_iff : .name piece ∈ components path ↔ .name piece ∈ steps path := by
  rw [components_eq_steps, List.mem_append]
  exact or_iff_right (name_not_mem_headComponents _ piece)

theorem name_mem_steps_iff : .name piece ∈ steps path ↔
    piece ∈ pieces path.toList ∧ isIdle piece = false ∧ piece ≠ ['.', '.'] := by
  rw [steps, stepsOf, List.mem_map]
  constructor
  · rintro ⟨other, hIn, hName⟩
    obtain ⟨hPiece, hIdle⟩ := List.mem_filter.mp hIn
    rw [ofPiece] at hName
    split at hName
    · cases hName
    · rename_i hDots
      obtain rfl := Component.name.inj hName
      exact ⟨hPiece, by simpa using hIdle, hDots⟩
  · rintro ⟨hPiece, hIdle, hDots⟩
    exact ⟨piece, List.mem_filter.mpr ⟨hPiece, by simp [hIdle]⟩, if_neg hDots⟩

/-- The characters of a path other than slashes and dots are in the names it goes through. -/
theorem mem_toList_iff {c : Char} (hChar : c ≠ '/' ∧ c ≠ '.') :
    c ∈ path.toList ↔ ∃ piece, .name piece ∈ steps path ∧ c ∈ piece := by
  constructor
  · intro h
    obtain ⟨piece, hPiece, hIn⟩ := exists_mem_pieces hChar.1 h
    refine ⟨piece, name_mem_steps_iff.mpr ⟨hPiece, ?_, ?_⟩, hIn⟩
    · rw [isIdle, Bool.or_eq_false_iff]
      refine ⟨beq_eq_false_iff_ne.mpr ?_, beq_eq_false_iff_ne.mpr ?_⟩ <;> rintro rfl
      · cases hIn
      · exact hChar.2 (List.mem_singleton.mp hIn)
    · rintro rfl
      simp [hChar.2] at hIn
  · rintro ⟨piece, hName, hIn⟩
    exact mem_of_mem_pieces (name_mem_steps_iff.mp hName).1 hIn

/-! ## Beginnings -/

theorem splitHead_join (text : List Char) :
    (splitHead text).1 ++ joinPieces (splitHead text).2 = text := by
  rw [splitHead.eq_def]
  split
  · exact congrArg _ (joinPieces_pieces _)
  · rfl
  · rename_i rest
    obtain ⟨piece, later, hPieces⟩ := exists_pieces_cons rest
    have hJoin := joinPieces_pieces rest
    rw [hPieces] at hJoin
    dsimp only
    rw [hPieces, joinPieces_cons_cons, hJoin]
    rfl
  · exact joinPieces_pieces _

theorem not_mem_of_mem_splitHead (h : piece ∈ (splitHead text).2) : '/' ∉ piece := by
  rw [splitHead.eq_def] at h
  split at h
  · exact not_mem_of_mem_pieces h
  · obtain rfl := List.mem_singleton.mp h
    exact List.not_mem_nil
  · rcases List.mem_cons.mp h with rfl | hLater
    · exact List.not_mem_nil
    · exact not_mem_of_mem_pieces hLater
  · exact not_mem_of_mem_pieces h

/-- What a path is split into: a beginning, and pieces that would not be read as one. -/
inductive Splits : List Char → List (List Char) → Prop where
  | rooted {parts : List (List Char)} : parts ≠ [] → Splits ['/'] parts
  | dotted (later : List (List Char)) : Splits ['.'] ([] :: later)
  | empty : Splits [] [[]]
  | bare {piece : List Char} (later : List (List Char)) :
      isIdle piece = false → Splits [] (piece :: later)

/-- A text without a beginning of its own starts with a piece that takes a step. -/
theorem exists_first_step (hText : text ≠ []) (hRoot : ∀ rest, text = '/' :: rest → False)
    (hDot : text = ['.'] → False) (hDotted : ∀ rest, text = '.' :: '/' :: rest → False) :
    ∃ piece later, pieces text = piece :: later ∧ isIdle piece = false := by
  obtain ⟨c, rest, rfl⟩ := List.exists_cons_of_ne_nil hText
  obtain ⟨piece, later, hPieces⟩ := exists_pieces_cons rest
  have hFirst : c ≠ '/' := fun h => hRoot rest (h ▸ rfl)
  rw [pieces, if_neg hFirst, hPieces]
  refine ⟨c :: piece, later, rfl, ?_⟩
  by_cases hChar : c = '.'
  · cases rest with
    | nil => exact (hDot (hChar ▸ rfl)).elim
    | cons d rest =>
      have hSecond : d ≠ '/' := fun h => hDotted rest (by rw [hChar, h])
      obtain ⟨inner, others, hInner⟩ := exists_pieces_cons rest
      rw [pieces, if_neg hSecond, hInner] at hPieces
      obtain ⟨rfl, -⟩ := List.cons.inj hPieces
      simp [isIdle]
  · simp [isIdle, hChar]

theorem splits_splitHead (text : List Char) : Splits (splitHead text).1 (splitHead text).2 := by
  rw [splitHead.eq_def]
  split
  · rename_i rest
    obtain ⟨piece, later, hPieces⟩ := exists_pieces_cons rest
    exact .rooted (hPieces ▸ List.cons_ne_nil _ _)
  · exact .dotted []
  · exact .dotted _
  · rename_i hRoot hDot hDotted
    dsimp only
    by_cases hText : text = []
    · rw [hText]
      exact .empty
    · obtain ⟨piece, later, hPieces, hIdle⟩ := exists_first_step hText hRoot hDot hDotted
      rw [hPieces]
      exact .bare later hIdle

theorem components_eq_nil_iff : components path = [] ↔ path = "" := by
  refine ⟨fun h => ?_, fun h => h ▸ by decide⟩
  rw [components_eq, splitHead.eq_def] at h
  split at h
  · cases h
  · cases h
  · cases h
  · rename_i hRoot hDot hDotted
    by_contra hPath
    have hText : path.toList ≠ [] := fun hNil => hPath (String.toList_eq_nil_iff.mp hNil)
    obtain ⟨piece, later, hPieces, hIdle⟩ := exists_first_step hText hRoot hDot hDotted
    have hSteps : stepsOf (pieces path.toList) = [] := (List.append_eq_nil_iff.mp h).2
    rw [hPieces, ← List.singleton_append, stepsOf_append, stepsOf_singleton hIdle] at hSteps
    cases hSteps

theorem splitHead_of_bare (hPieces : pieces text = piece :: later) (hIdle : isIdle piece = false) :
    splitHead text = ([], piece :: later) := by
  rw [splitHead.eq_def]
  split
  · rw [pieces, if_pos rfl] at hPieces
    obtain ⟨rfl, -⟩ := List.cons.inj hPieces
    cases hIdle
  · obtain ⟨rfl, -⟩ := List.cons.inj hPieces
    cases hIdle
  · rename_i rest
    have hSplit := pieces_append_cons ['.'] rest
    rw [List.singleton_append, hPieces] at hSplit
    obtain ⟨rfl, -⟩ := List.cons.inj hSplit
    cases hIdle
  · rw [hPieces]

theorem Splits.splitHead_eq (h : Splits head parts) (hFlat : ∀ piece ∈ parts, '/' ∉ piece) :
    splitHead (head ++ joinPieces parts) = (head, parts) := by
  cases h with
  | rooted hParts => exact congrArg (Prod.mk ['/']) (pieces_joinPieces hParts hFlat)
  | dotted later =>
    cases later with
    | nil => rfl
    | cons next later =>
      have hRest := pieces_joinPieces (List.cons_ne_nil next later) fun piece hPiece =>
        hFlat piece (List.mem_cons_of_mem [] hPiece)
      rw [joinPieces_cons_cons]
      exact congrArg (fun parts => (['.'], [] :: parts)) hRest
  | empty => rfl
  | bare later hIdle =>
    exact splitHead_of_bare (pieces_joinPieces (List.cons_ne_nil _ later) hFlat) hIdle

/-- A path may end after any of its pieces. -/
theorem Splits.of_prefix (h : Splits head (piece :: parts ++ later)) :
    Splits head (piece :: parts) := by
  generalize hAll : piece :: parts ++ later = all at h
  cases h with
  | rooted => exact .rooted (List.cons_ne_nil piece parts)
  | dotted =>
    obtain ⟨rfl, -⟩ := List.cons.inj hAll
    exact .dotted parts
  | empty =>
    obtain ⟨rfl, hRest⟩ := List.cons.inj hAll
    rw [(List.append_eq_nil_iff.mp hRest).1]
    exact .empty
  | bare _ hIdle =>
    obtain ⟨rfl, -⟩ := List.cons.inj hAll
    exact .bare parts hIdle

/-- A path may end before its pieces. -/
theorem Splits.nil (h : Splits head parts) : Splits head [[]] := by
  cases h with
  | rooted => exact .rooted (List.cons_ne_nil [] [])
  | dotted => exact .dotted []
  | empty | bare => exact .empty

/-! ## Directories -/

theorem dropIdleEnd_concat (parts : List (List Char)) (h : isIdle piece = false) :
    dropIdleEnd (parts ++ [piece]) = parts ++ [piece] := by
  simp [dropIdleEnd, h]

theorem dropIdleEnd_cases (parts : List (List Char)) :
    (∀ piece ∈ parts, isIdle piece = true) ∧ dropIdleEnd parts = [] ∨
      ∃ earlier last idle, parts = earlier ++ last :: idle ∧ isIdle last = false ∧
        (∀ piece ∈ idle, isIdle piece = true) ∧ dropIdleEnd parts = earlier ++ [last] := by
  induction parts using List.reverseRecOn with
  | nil => exact .inl ⟨by simp, rfl⟩
  | append_singleton parts piece ih =>
    cases hIdle : isIdle piece with
    | false =>
      exact .inr ⟨parts, piece, [], rfl, hIdle, by simp, dropIdleEnd_concat parts hIdle⟩
    | true =>
      have hDrop : dropIdleEnd (parts ++ [piece]) = dropIdleEnd parts := by
        simp [dropIdleEnd, hIdle]
      rw [hDrop]
      rcases ih with ⟨hAll, hNil⟩ | ⟨earlier, last, idle, rfl, hLast, hEnd, hParts⟩
      · refine .inl ⟨fun other hOther => ?_, hNil⟩
        rcases List.mem_append.mp hOther with hIn | hIn
        · exact hAll other hIn
        · rwa [List.mem_singleton.mp hIn]
      · refine .inr ⟨earlier, last, idle ++ [piece], by simp, hLast, fun other hOther => ?_, hParts⟩
        rcases List.mem_append.mp hOther with hIn | hIn
        · exact hEnd other hIn
        · rwa [List.mem_singleton.mp hIn]

theorem stepsOf_dropIdleEnd (parts : List (List Char)) :
    stepsOf (dropIdleEnd parts) = stepsOf parts := by
  rcases dropIdleEnd_cases parts with ⟨hAll, hNil⟩ | ⟨earlier, last, idle, rfl, -, hEnd, hParts⟩
  · rw [hNil, stepsOf_eq_nil hAll]
    rfl
  · rw [hParts, List.append_cons earlier last idle, stepsOf_append _ idle, stepsOf_eq_nil hEnd,
      List.append_nil]

/-- The text of a path up to one of its pieces has the steps up to there. -/
theorem components_join (h : Splits head (parts ++ later))
    (hFlat : ∀ piece ∈ parts ++ later, '/' ∉ piece) :
    components (String.ofList (head ++ joinPieces (dropIdleEnd parts))) =
      headComponents head ++ stepsOf parts := by
  rw [← stepsOf_dropIdleEnd parts, components_eq, String.toList_ofList]
  rcases dropIdleEnd_cases parts with ⟨-, hNil⟩ | ⟨earlier, last, idle, rfl, -, -, hParts⟩
  · have hSplit := h.nil.splitHead_eq (by simp)
    rw [joinPieces_singleton] at hSplit
    have hJoin : joinPieces [] = [] := rfl
    rw [hNil, hJoin, hSplit]
    rfl
  · have hPrefix : earlier ++ last :: idle ++ later = (earlier ++ [last]) ++ (idle ++ later) := by
      simp
    have hSplit : splitHead (head ++ joinPieces (earlier ++ [last])) =
        (head, earlier ++ [last]) := by
      rw [hPrefix] at h hFlat
      obtain ⟨first, rest, hFirst⟩ : ∃ first rest, earlier ++ [last] = first :: rest :=
        List.exists_cons_of_ne_nil (by simp)
      rw [hFirst] at h hFlat ⊢
      exact h.of_prefix.splitHead_eq fun piece hPiece => hFlat piece (List.mem_append_left _ hPiece)
    rw [hParts, hSplit]

theorem directory?_of_dropIdleEnd {earlier : List (List Char)} {last : List Char}
    (h : dropIdleEnd (splitHead path.toList).2 = earlier ++ [last]) : directory? path =
      some (String.ofList ((splitHead path.toList).1 ++ joinPieces (dropIdleEnd earlier))) := by
  rw [directory?]
  simp only [h, List.reverse_append, List.reverse_singleton, List.singleton_append,
    List.reverse_reverse]

/-- The directory part of a path, unless there is nothing but a beginning. -/
theorem directory?_cases (path : String) :
    components path = headComponents (splitHead path.toList).1 ∧
        directory? path = (if (splitHead path.toList).1 = ['.'] then some "" else none) ∨
      ∃ directory last, directory? path = some directory ∧
        components path = components directory ++ [last] := by
  have hSplits := splits_splitHead path.toList
  have hFlat : ∀ piece ∈ (splitHead path.toList).2, '/' ∉ piece :=
    fun piece => not_mem_of_mem_splitHead
  rcases dropIdleEnd_cases (splitHead path.toList).2 with
    ⟨hAll, hNil⟩ | ⟨earlier, last, idle, hParts, hLast, hEnd, hKept⟩
  · left
    rw [components_eq, stepsOf_eq_nil hAll, List.append_nil, directory?]
    simp only [hNil, List.reverse_nil]
    exact ⟨trivial, trivial⟩
  · right
    rw [hParts] at hSplits hFlat
    refine ⟨String.ofList ((splitHead path.toList).1 ++ joinPieces (dropIdleEnd earlier)),
      ofPiece last, ?_, ?_⟩
    · exact directory?_of_dropIdleEnd hKept
    · rw [components_join hSplits hFlat, components_eq, hParts, List.append_cons earlier last idle,
        stepsOf_append, stepsOf_append, stepsOf_eq_nil hEnd, stepsOf_singleton hLast,
        List.append_nil, List.append_assoc]

theorem exists_directory? {earlier : List Component} {last : List Char}
    (h : components path = earlier ++ [.name last]) :
    ∃ directory, directory? path = some directory ∧ components directory = earlier := by
  rcases directory?_cases path with ⟨hHead, -⟩ | ⟨directory, other, hSome, hComponents⟩
  · have hName : Component.name last ∈ components path :=
      h ▸ List.mem_append_right earlier List.mem_cons_self
    exact absurd (hHead ▸ hName) (name_not_mem_headComponents _ last)
  · rw [h] at hComponents
    exact ⟨directory, hSome, (List.append_inj' hComponents rfl).1.symm⟩

/-- The directory part of a path is spelled as in the path. -/
theorem directory?_append (hPath : path ≠ "") {label : String} (hLabel : IsName label)
    (hName : IsName name) :
    directory? (path ++ "/" ++ label ++ "/" ++ name) = some (path ++ "/" ++ label) := by
  have hLeft : path.toList ≠ [] := fun h => hPath (String.toList_eq_nil_iff.mp h)
  have hSplit : splitHead (path ++ "/" ++ label).toList =
      ((splitHead path.toList).1, (splitHead path.toList).2 ++ [label.toList]) := by
    rw [toList_append_slash, splitHead_append hLeft, hLabel.pieces_eq]
  have hBoth : splitHead (path ++ "/" ++ label ++ "/" ++ name).toList =
      ((splitHead path.toList).1,
        (splitHead path.toList).2 ++ [label.toList] ++ [name.toList]) := by
    rw [toList_append_slash, splitHead_append (by simp), hSplit, hName.pieces_eq]
  have hKept : dropIdleEnd (splitHead (path ++ "/" ++ label ++ "/" ++ name).toList).2 =
      (splitHead path.toList).2 ++ [label.toList] ++ [name.toList] := by
    rw [hBoth]
    exact dropIdleEnd_concat _ hName.isIdle_eq
  have hJoin := splitHead_join (path ++ "/" ++ label).toList
  rw [hSplit] at hJoin
  rw [directory?_of_dropIdleEnd hKept, dropIdleEnd_concat _ hLabel.isIdle_eq, hBoth]
  exact congrArg some ((congrArg String.ofList hJoin).trans String.ofList_toList)

end TemplateBinding.PathName
