import Mathlib
import TemplateBinding.Identifier

/-!
# Suggested names

What is kept of a label are words joined by single underscores.  The later steps only put something
in front or change the case of the first letter.  So a suggestion is a legal name, and it ends with
the letters and digits of the label.
-/
namespace TemplateBinding
set_option autoImplicit false

namespace Identifier

variable {c : Char} {chars name words : List Char} {start : Option (List Char)}

/-! ## Characters -/

/-- The characters that a label contributes to a name. -/
def isWordChar (c : Char) : Bool := isLetter c || isDigit c

theorem isLetter_iff : isLetter c = true ↔
    65 ≤ c.toNat ∧ c.toNat ≤ 90 ∨ 97 ≤ c.toNat ∧ c.toNat ≤ 122 := by
  simp [isLetter, Char.le_def, UInt32.le_iff_toNat_le]

theorem isDigit_iff : isDigit c = true ↔ 48 ≤ c.toNat ∧ c.toNat ≤ 57 := by
  simp [isDigit, Char.le_def, UInt32.le_iff_toNat_le]

theorem isWordChar_iff : isWordChar c = true ↔ isLetter c = true ∨ isDigit c = true := by
  rw [isWordChar, Bool.or_eq_true]

theorem continuesName_of_isWordChar (h : isWordChar c = true) : continuesName c = true :=
  continuesName_iff.mpr ((isWordChar_iff.mp h).imp_left fun hLetter =>
    startsName_iff.mpr (.inl hLetter))

theorem isDigit_eq_false_of_startsName (h : startsName c = true) : isDigit c = false := by
  rw [Bool.eq_false_iff, ne_eq, isDigit_iff]
  rcases startsName_iff.mp h with hLetter | rfl
  · have hCode := isLetter_iff.mp hLetter
    omega
  · decide

theorem toNat_lt_of_startsName (h : startsName c = true) : c.toNat < 0x80 := by
  rcases startsName_iff.mp h with hLetter | rfl
  · have hCode := isLetter_iff.mp hLetter
    omega
  · decide

theorem isLetter_eq_isAlpha (c : Char) : isLetter c = c.isAlpha := by
  simp [isLetter, Char.isAlpha, Char.isUpper, Char.isLower, Char.le_def]

theorem isLetter_toUpper (c : Char) : isLetter c.toUpper = isLetter c := by
  rw [isLetter_eq_isAlpha, isLetter_eq_isAlpha, Char.isAlpha_toUpper_eq_isAlpha]

theorem startsName_toUpper (h : startsName c = true) : startsName c.toUpper = true := by
  rcases startsName_iff.mp h with hLetter | rfl
  · exact startsName_iff.mpr (.inl ((isLetter_toUpper c).trans hLetter))
  · rfl

theorem isWordChar_toUpper (h : startsName c = true) : isWordChar c.toUpper = isWordChar c := by
  rw [isWordChar, isWordChar, isLetter_toUpper, isDigit_eq_false_of_startsName h,
    isDigit_eq_false_of_startsName (startsName_toUpper h)]

/-! ## Joined words -/

/-- Words of letters and digits, joined by single underscores. -/
inductive Joined : List Char → Prop where
  | last {c : Char} : isWordChar c = true → Joined [c]
  | next {c : Char} {rest : List Char} : isWordChar c = true → Joined rest → Joined (c :: rest)
  | separated {c : Char} {rest : List Char} : isWordChar c = true → Joined rest →
      Joined (c :: '_' :: rest)

/-- What can follow a letter or digit: nothing, words, or words after an underscore. -/
def IsTail (chars : List Char) : Prop :=
  chars = [] ∨ Joined chars ∨ ∃ rest, chars = '_' :: rest ∧ Joined rest

theorem IsTail.joined (h : IsTail chars) (hFirst : isWordChar c = true) : Joined (c :: chars) := by
  rcases h with rfl | hWords | ⟨rest, rfl, hWords⟩
  · exact .last hFirst
  · exact .next hFirst hWords
  · exact .separated hFirst hWords

theorem joinWords_of_isWordChar (h : isWordChar c = true) (rest : List Char)
    (started pending : Bool) :
    joinWords (c :: rest) started pending =
      (if started && pending then ['_', c] else [c]) ++ joinWords rest true false := if_pos h

theorem joinWords_of_not_isWordChar (h : ¬isWordChar c = true) (rest : List Char)
    (started pending : Bool) :
    joinWords (c :: rest) started pending = joinWords rest started (pending || isSeparator c) :=
  if_neg h

theorem isTail_joinWords (chars : List Char) (pending : Bool) :
    IsTail (joinWords chars true pending) := by
  induction chars generalizing pending with
  | nil => exact .inl rfl
  | cons c rest ih =>
    by_cases hKept : isWordChar c = true
    · have hWords := (ih false).joined hKept
      rw [joinWords_of_isWordChar hKept]
      cases pending with
      | false => exact .inr (.inl hWords)
      | true => exact .inr (.inr ⟨_, rfl, hWords⟩)
    · rw [joinWords_of_not_isWordChar hKept]
      exact ih _

theorem joined_joinWords (chars : List Char) (pending : Bool) :
    joinWords chars false pending = [] ∨ Joined (joinWords chars false pending) := by
  induction chars generalizing pending with
  | nil => exact .inl rfl
  | cons c rest ih =>
    by_cases hKept : isWordChar c = true
    · rw [joinWords_of_isWordChar hKept]
      exact .inr ((isTail_joinWords rest false).joined hKept)
    · rw [joinWords_of_not_isWordChar hKept]
      exact ih _

theorem Joined.ne_nil (h : Joined words) : words ≠ [] := by
  cases h <;> exact List.cons_ne_nil _ _

theorem Joined.continuesName (h : Joined words) : ∀ c ∈ words, continuesName c = true := by
  induction h with
  | last hFirst =>
    intro c hIn
    rw [List.mem_singleton.mp hIn]
    exact continuesName_of_isWordChar hFirst
  | next hFirst _ ih => exact List.forall_mem_cons.mpr ⟨continuesName_of_isWordChar hFirst, ih⟩
  | separated hFirst _ ih =>
    exact List.forall_mem_cons.mpr
      ⟨continuesName_of_isWordChar hFirst, List.forall_mem_cons.mpr ⟨rfl, ih⟩⟩

/-! ## Steps of a suggestion -/

/-- The words of the label, or what stands for a label without words. -/
def baseName (config : Config) (label : String) : List Char :=
  let words := joinWords label.toList false false
  if words.isEmpty then config.fallbackName.toList else words

/-- What the names for a capability begin with. -/
def start? (config : Config) (capability : Option String) : Option (List Char) :=
  (capability.bind config.namePrefix?).map String.toList

theorem toList_suggest (config : Config) (capability : Option String) (label : String) :
    (suggest config capability label).toList = Text.capitalize
      (addPrefix (start? config capability) (guardDigit (baseName config label))) := by
  rw [suggest, String.toList_ofList]
  rfl

theorem baseName_of_joined {config : Config} {label : String}
    (h : Joined (joinWords label.toList false false)) :
    baseName config label = joinWords label.toList false false :=
  if_neg (by simpa using h.ne_nil)

theorem exists_entry_of_start? {config : Config} {capability : Option String} {first : List Char}
    (h : first ∈ start? config capability) :
    ∃ entry ∈ config.namePrefixes, entry.2.toList = first := by
  obtain ⟨text, hText, rfl⟩ := Option.map_eq_some_iff.mp h
  obtain ⟨_, _, hFound⟩ := Option.bind_eq_some_iff.mp hText
  obtain ⟨entry, hEntry, rfl⟩ := Option.map_eq_some_iff.mp hFound
  exact ⟨entry, List.mem_of_find?_eq_some hEntry, rfl⟩

theorem addPrefix_cases (start : Option (List Char)) (name : List Char) :
    addPrefix start name = name ∨ ∃ first ∈ start, addPrefix start name = first ++ name := by
  cases start with
  | none => exact .inl rfl
  | some first =>
    rw [addPrefix]
    split
    · exact .inl rfl
    · exact .inr ⟨first, rfl, rfl⟩

theorem exists_cons_of_isLegalList (h : isLegalList chars = true) :
    ∃ first rest, chars = first :: rest ∧ startsName first = true := by
  cases chars with
  | nil => cases h
  | cons first rest => exact ⟨first, rest, rfl, (Bool.and_eq_true_iff.mp h).1⟩

theorem guardDigit_of_startsName (h : startsName c = true) (rest : List Char) :
    guardDigit (c :: rest) = c :: rest := by
  rw [guardDigit, isDigit_eq_false_of_startsName h]
  rfl

theorem capitalize_cons (h : startsName c = true) (rest : List Char) :
    Text.capitalize (c :: rest) = c.toUpper :: rest := by
  rw [Text.capitalize, Text.upperCase_of_ascii c (toNat_lt_of_startsName h), List.singleton_append]

/-! ## Legality -/

theorem isLegalList_guardDigit (hSome : chars ≠ []) (h : ∀ c ∈ chars, continuesName c = true) :
    isLegalList (guardDigit chars) = true := by
  cases chars with
  | nil => exact absurd rfl hSome
  | cons first rest =>
    rw [guardDigit]
    split
    · exact isLegalList_iff.mpr ⟨⟨'_', rfl, rfl⟩, List.forall_mem_cons.mpr ⟨rfl, h⟩⟩
    · rename_i hDigit
      have hFirst := (continuesName_iff.mp (h first List.mem_cons_self)).resolve_right hDigit
      exact isLegalList_iff.mpr ⟨⟨first, rfl, hFirst⟩, h⟩

theorem isLegalList_append {first : List Char} (hFirst : isLegalList first = true)
    (h : ∀ c ∈ name, continuesName c = true) : isLegalList (first ++ name) = true := by
  obtain ⟨⟨top, hTop, hStarts⟩, hContinues⟩ := isLegalList_iff.mp hFirst
  refine isLegalList_iff.mpr ⟨⟨top, ?_, hStarts⟩, List.forall_mem_append.mpr ⟨hContinues, h⟩⟩
  rw [List.head?_append, hTop]
  rfl

theorem isLegalList_addPrefix (hStart : ∀ first ∈ start, first = [] ∨ isLegalList first = true)
    (h : isLegalList name = true) : isLegalList (addPrefix start name) = true := by
  rcases addPrefix_cases start name with hSame | ⟨first, hFirst, hAdded⟩
  · rw [hSame, h]
  · rw [hAdded]
    rcases hStart first hFirst with rfl | hLegal
    · exact h
    · exact isLegalList_append hLegal (isLegalList_iff.mp h).2

theorem isLegalList_capitalize (h : isLegalList name = true) :
    isLegalList (Text.capitalize name) = true := by
  obtain ⟨first, rest, rfl, hFirst⟩ := exists_cons_of_isLegalList h
  rw [capitalize_cons hFirst, isLegalList, startsName_toUpper hFirst, Bool.true_and]
  exact (Bool.and_eq_true_iff.mp h).2

theorem isLower_eq_false_of_mem_head?_capitalize (h : isLegalList name = true) :
    ∀ first ∈ (Text.capitalize name).head?, first.isLower = false := by
  obtain ⟨first, rest, rfl, hFirst⟩ := exists_cons_of_isLegalList h
  rw [capitalize_cons hFirst]
  intro other hOther
  rw [← Option.some.inj hOther, Char.isLower_toUpper_eq_false]

theorem isLower_of_mem_keywords :
    ∀ word ∈ keywords, word.toList.head?.any Char.isLower = true := by
  decide

end Identifier

/-- The names and prefixes that the configuration puts into suggestions are legal themselves. -/
structure Config.HasLegalNames (config : Config) : Prop where
  fallback : Identifier.isLegal config.fallbackName = true
  prefixes : ∀ entry ∈ config.namePrefixes, entry.2 = "" ∨ Identifier.isLegal entry.2 = true

namespace Identifier

variable {config : Config} {name : List Char}

theorem isLegalList_base (h : config.HasLegalNames) (label : String) :
    isLegalList (guardDigit (baseName config label)) = true := by
  rw [baseName]
  split
  · have hFallback : isLegalList config.fallbackName.toList = true := h.fallback
    obtain ⟨first, rest, hSplit, _⟩ := exists_cons_of_isLegalList hFallback
    refine isLegalList_guardDigit ?_ (isLegalList_iff.mp hFallback).2
    rw [hSplit]
    exact List.cons_ne_nil first rest
  · rename_i hWords
    have hJoined := (joined_joinWords label.toList false).resolve_left (by simpa using hWords)
    exact isLegalList_guardDigit hJoined.ne_nil hJoined.continuesName

theorem isLegalList_addPrefix_base (h : config.HasLegalNames) (capability : Option String)
    (label : String) :
    isLegalList (addPrefix (start? config capability) (guardDigit (baseName config label))) =
      true := by
  refine isLegalList_addPrefix ?_ (isLegalList_base h label)
  intro first hFirst
  obtain ⟨entry, hEntry, rfl⟩ := exists_entry_of_start? hFirst
  exact (h.prefixes entry hEntry).imp_left fun hEmpty => by rw [hEmpty]; rfl

theorem isLegal_suggest (h : config.HasLegalNames) (capability : Option String) (label : String) :
    isLegal (suggest config capability label) = true := by
  rw [isLegal, toList_suggest]
  exact isLegalList_capitalize (isLegalList_addPrefix_base h capability label)

theorem isLower_eq_false_of_mem_head?_suggest (h : config.HasLegalNames)
    (capability : Option String) (label : String) :
    ∀ first ∈ (suggest config capability label).toList.head?, first.isLower = false := by
  rw [toList_suggest]
  exact isLower_eq_false_of_mem_head?_capitalize (isLegalList_addPrefix_base h capability label)

/-- Keywords begin with a lower-case letter, and suggestions do not. -/
theorem suggest_not_mem_keywords (h : config.HasLegalNames) (capability : Option String)
    (label : String) : suggest config capability label ∉ keywords := by
  intro hKeyword
  obtain ⟨first, hFirst, hLower⟩ :=
    (Option.any_eq_true _ _).mp (isLower_of_mem_keywords _ hKeyword)
  rw [isLower_eq_false_of_mem_head?_suggest h capability label first hFirst] at hLower
  cases hLower

/-! ## Content -/

/-- The letters and digits of a text, without regard to the case of the letters. -/
def content (chars : List Char) : List Char := (chars.filter isWordChar).map Char.toLower

theorem content_append (first second : List Char) :
    content (first ++ second) = content first ++ content second := by
  rw [content, List.filter_append, List.map_append, content, content]

theorem content_joinWords (chars : List Char) (started pending : Bool) :
    content (joinWords chars started pending) = content chars := by
  induction chars generalizing started pending with
  | nil => rfl
  | cons c rest ih =>
    by_cases hKept : isWordChar c = true
    · have hFirst : content (if started && pending then ['_', c] else [c]) = content [c] := by
        split <;> rfl
      rw [joinWords_of_isWordChar hKept, content_append, hFirst, ih, ← content_append,
        List.singleton_append]
    · rw [joinWords_of_not_isWordChar hKept, ih, content, content, List.filter_cons_of_neg hKept]

theorem content_guardDigit (chars : List Char) : content (guardDigit chars) = content chars := by
  cases chars with
  | nil => rfl
  | cons first rest =>
    rw [guardDigit]
    split <;> rfl

theorem content_suffix_addPrefix (start : Option (List Char)) (name : List Char) :
    content name <:+ content (addPrefix start name) := by
  rcases addPrefix_cases start name with hSame | ⟨first, _, hAdded⟩
  · rw [hSame]
  · rw [hAdded, content_append]
    exact List.suffix_append _ _

theorem content_capitalize (h : isLegalList name = true) :
    content (Text.capitalize name) = content name := by
  obtain ⟨first, rest, rfl, hFirst⟩ := exists_cons_of_isLegalList h
  have hTop : content [first.toUpper] = content [first] := by
    rw [content, content, List.filter_singleton, List.filter_singleton, isWordChar_toUpper hFirst]
    cases isWordChar first with
    | false => rfl
    | true => exact congrArg (· :: []) (Char.toLower_toUpper_eq_toLower first)
  rw [capitalize_cons hFirst, ← List.singleton_append, content_append, hTop, ← content_append,
    List.singleton_append]

theorem content_suffix_suggest (h : config.HasLegalNames) (capability : Option String)
    (label : String) :
    content label.toList <:+ content (suggest config capability label).toList := by
  rw [toList_suggest, content_capitalize (isLegalList_addPrefix_base h capability label)]
  rcases joined_joinWords label.toList false with hEmpty | hJoined
  · rw [← content_joinWords label.toList false false, hEmpty]
    exact List.nil_suffix
  · have hBase : baseName config label = joinWords label.toList false false :=
      baseName_of_joined hJoined
    rw [← content_joinWords label.toList false false, ← hBase, ← content_guardDigit]
    exact content_suffix_addPrefix _ _

/-- A suggestion is a legal name and no keyword, and it loses no letter or digit of the label. -/
theorem suggest_keeps_content (h : config.HasLegalNames) (capability : Option String)
    (label : String) :
    let name := suggest config capability label
    isLegal name = true ∧ (∀ first ∈ name.toList.head?, first.isLower = false) ∧ name ∉ keywords ∧
      content label.toList <:+ content name.toList :=
  ⟨isLegal_suggest h capability label, isLower_eq_false_of_mem_head?_suggest h capability label,
    suggest_not_mem_keywords h capability label, content_suffix_suggest h capability label⟩

def looseNames : Config where
  namePrefixes := [("icon", ""), ("text", "txt_")]
  fallbackName := "class"

/-- A keyword becomes a name, an empty prefix adds nothing, and other letters than those of ASCII
are dropped. -/
theorem suggest_keeps_content_looseNames :
    looseNames.HasLegalNames ∧
      suggest looseNames (some "icon") "!!" = "Class" ∧ "Class" ∉ keywords ∧
      suggest looseNames (some "Text") " 2nd – Überschrift" = "Txt__2nd_berschrift" ∧
      "2ndberschrift".toList <:+ content "Txt__2nd_berschrift".toList := by
  have hNames : looseNames.HasLegalNames := ⟨by decide, by decide⟩
  have hClass : suggest looseNames (some "icon") "!!" = "Class" := by decide +kernel
  have hHeading : suggest looseNames (some "Text") " 2nd – Überschrift" = "Txt__2nd_berschrift" := by
    decide +kernel
  obtain ⟨_, _, hFree, _⟩ := suggest_keeps_content hNames (some "icon") "!!"
  obtain ⟨_, _, _, hSuffix⟩ := suggest_keeps_content hNames (some "Text") " 2nd – Überschrift"
  rw [hClass] at hFree
  rw [hHeading] at hSuffix
  exact ⟨hNames, hClass, hFree, hHeading, hSuffix⟩

end Identifier

end TemplateBinding
