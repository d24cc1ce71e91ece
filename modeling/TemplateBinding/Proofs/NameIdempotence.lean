import TemplateBinding.Proofs.NameSuggestion

/-!
# Suggestions for suggestions

Joining words that are joined already changes nothing, and neither does a step that is taken again:
a prefix that is there is not added, and an upper-case letter stays.  The underscore before a digit
is dropped and put back.  So a suggestion is suggested for itself, as long as the names and prefixes
of the configuration have no underscores of their own.
-/
namespace TemplateBinding
set_option autoImplicit false

namespace Identifier

variable {name words : List Char} {start : Option (List Char)}

def isPlainList : List Char → Bool
  | [] => false
  | first :: rest => isLetter first && rest.all isWordChar

/-- An ASCII letter, followed by ASCII letters and digits. -/
def isPlain (name : String) : Bool := isPlainList name.toList

/-- Joined words are joined already. -/
theorem Joined.joinWords_eq (h : Joined words) (started pending : Bool) :
    joinWords words started pending = (if started && pending then ['_'] else []) ++ words := by
  induction h generalizing started pending with
  | last hFirst =>
    rw [joinWords_of_isWordChar hFirst]
    split <;> rfl
  | next hFirst _ ih =>
    rw [joinWords_of_isWordChar hFirst, ih]
    split <;> rfl
  | separated hFirst _ ih =>
    rw [joinWords_of_isWordChar hFirst, joinWords_of_not_isWordChar (by decide), ih]
    split <;> rfl

/-- Words, after an underscore if they begin with a digit. -/
def IsGuarded (name : List Char) : Prop := ∃ words, Joined words ∧ guardDigit words = name

theorem exists_cons_of_isPlainList {first : List Char} (h : isPlainList first = true) :
    ∃ letter rest, first = letter :: rest ∧ isLetter letter = true ∧
      ∀ c ∈ rest, isWordChar c = true := by
  cases first with
  | nil => cases h
  | cons letter rest =>
    rw [isPlainList, Bool.and_eq_true, List.all_eq_true] at h
    exact ⟨letter, rest, rfl, h.1, h.2⟩

theorem isTail_guardDigit (h : Joined words) : IsTail (guardDigit words) := by
  cases words with
  | nil => exact .inl rfl
  | cons first rest =>
    rw [guardDigit]
    split
    · exact .inr (.inr ⟨_, rfl, h⟩)
    · exact .inr (.inl h)

theorem isTail_append {first : List Char} (hFirst : ∀ c ∈ first, isWordChar c = true)
    (h : IsTail name) : IsTail (first ++ name) := by
  induction first with
  | nil => exact h
  | cons c rest ih =>
    obtain ⟨hChar, hRest⟩ := List.forall_mem_cons.mp hFirst
    exact .inr (.inl ((ih hRest).joined hChar))

theorem joined_append_of_isPlainList {first : List Char} (hFirst : isPlainList first = true)
    (h : IsTail name) : Joined (first ++ name) := by
  obtain ⟨letter, rest, rfl, hLetter, hRest⟩ := exists_cons_of_isPlainList hFirst
  exact (isTail_append hRest h).joined (isWordChar_iff.mpr (.inl hLetter))

theorem guardDigit_append_of_isPlainList {first : List Char} (h : isPlainList first = true)
    (name : List Char) : guardDigit (first ++ name) = first ++ name := by
  obtain ⟨letter, rest, rfl, hLetter, _⟩ := exists_cons_of_isPlainList h
  exact guardDigit_of_startsName (startsName_iff.mpr (.inl hLetter)) (rest ++ name)

theorem isGuarded_of_isPlainList {first : List Char} (h : isPlainList first = true) :
    IsGuarded (guardDigit first) := by
  have hJoined := joined_append_of_isPlainList h (.inl rfl)
  rw [List.append_nil] at hJoined
  exact ⟨first, hJoined, rfl⟩

theorem IsGuarded.isLegalList (h : IsGuarded name) : isLegalList name = true := by
  obtain ⟨words, hJoined, rfl⟩ := h
  exact isLegalList_guardDigit hJoined.ne_nil hJoined.continuesName

/-- Dropping the underscore before a digit and putting it back changes nothing. -/
theorem IsGuarded.joined_joinWords (h : IsGuarded name) :
    Joined (joinWords name false false) ∧ guardDigit (joinWords name false false) = name := by
  obtain ⟨words, hJoined, rfl⟩ := h
  have hWords : joinWords (guardDigit words) false false = words := by
    cases words with
    | nil => rfl
    | cons first rest =>
      rw [guardDigit]
      split
      · rw [joinWords_of_not_isWordChar (by decide), hJoined.joinWords_eq]
        rfl
      · rw [hJoined.joinWords_eq]
        rfl
  rw [hWords]
  exact ⟨hJoined, rfl⟩

theorem IsGuarded.addPrefix (hStart : ∀ first ∈ start, isPlainList first = true)
    (h : IsGuarded name) : IsGuarded (addPrefix start name) := by
  rcases addPrefix_cases start name with hSame | ⟨first, hFirst, hAdded⟩
  · rw [hSame]
    exact h
  · obtain ⟨words, hJoined, rfl⟩ := h
    rw [hAdded, ← guardDigit_append_of_isPlainList (hStart first hFirst)]
    exact ⟨_, joined_append_of_isPlainList (hStart first hFirst) (isTail_guardDigit hJoined), rfl⟩

theorem Joined.with_first {first second : Char} {rest : List Char} (h : Joined (first :: rest))
    (hSecond : isWordChar second = true) : Joined (second :: rest) := by
  cases h with
  | last => exact .last hSecond
  | next _ hRest => exact .next hSecond hRest
  | separated _ hRest => exact .separated hSecond hRest

theorem Joined.isWordChar_first {first : Char} {rest : List Char} (h : Joined (first :: rest)) :
    isWordChar first = true := by
  cases h <;> assumption

theorem IsGuarded.capitalize (h : IsGuarded name) : IsGuarded (Text.capitalize name) := by
  obtain ⟨words, hJoined, rfl⟩ := h
  cases words with
  | nil => exact absurd rfl hJoined.ne_nil
  | cons first rest =>
    rw [guardDigit]
    split
    · rename_i hDigit
      exact ⟨first :: rest, hJoined, if_pos hDigit⟩
    · rename_i hDigit
      have hLetter := (isWordChar_iff.mp hJoined.isWordChar_first).resolve_right hDigit
      have hStarts := startsName_iff.mpr (.inl hLetter)
      rw [capitalize_cons hStarts,
        ← guardDigit_of_startsName (startsName_toUpper hStarts)]
      exact ⟨_, hJoined.with_first (isWordChar_iff.mpr (.inl ((isLetter_toUpper first).trans
        hLetter))), rfl⟩

theorem capitalize_capitalize (h : isLegalList name = true) :
    Text.capitalize (Text.capitalize name) = Text.capitalize name := by
  obtain ⟨first, rest, rfl, hFirst⟩ := exists_cons_of_isLegalList h
  rw [capitalize_cons hFirst, capitalize_cons (startsName_toUpper hFirst),
    Char.toUpper_toUpper_eq_toUpper]

theorem beginsWith_append (first name : List Char) : beginsWith (first ++ name) first = true := by
  rw [beginsWith, List.take_left, sameIgnoringCase, beq_self_eq_true]

theorem beginsWith_capitalize (h : isLegalList name = true) (first : List Char) :
    beginsWith (Text.capitalize name) first = beginsWith name first := by
  obtain ⟨top, rest, rfl, hTop⟩ := exists_cons_of_isLegalList h
  rw [capitalize_cons hTop, beginsWith, beginsWith]
  cases first with
  | nil => rfl
  | cons c first =>
    simp only [List.length_cons, List.take_succ_cons, sameIgnoringCase, List.map_cons,
      Char.toLower_toUpper_eq_toLower]

theorem beginsWith_addPrefix (start : Option (List Char)) (name : List Char) :
    ∀ first ∈ start, beginsWith (addPrefix start name) first = true := by
  rintro first rfl
  rw [addPrefix]
  split
  · assumption
  · exact beginsWith_append first name

theorem addPrefix_eq_self (h : ∀ first ∈ start, beginsWith name first = true) :
    addPrefix start name = name := by
  cases start with
  | none => rfl
  | some first => exact if_pos (h first rfl)

end Identifier

/-- The names and prefixes that the configuration puts into suggestions have no underscores. -/
structure Config.HasPlainNames (config : Config) : Prop where
  fallback : Identifier.isPlain config.fallbackName = true
  prefixes : ∀ entry ∈ config.namePrefixes, Identifier.isPlain entry.2 = true

namespace Identifier

variable {config : Config}

theorem isGuarded_base (h : config.HasPlainNames) (label : String) :
    IsGuarded (guardDigit (baseName config label)) := by
  rcases joined_joinWords label.toList false with hEmpty | hJoined
  · rw [baseName, hEmpty]
    exact isGuarded_of_isPlainList h.fallback
  · rw [baseName_of_joined hJoined]
    exact ⟨_, hJoined, rfl⟩

/-- A name that no step of a suggestion changes is suggested for itself. -/
theorem suggest_eq_self {capability : Option String} {name : String}
    (hGuarded : IsGuarded name.toList)
    (hPrefix : addPrefix (start? config capability) name.toList = name.toList)
    (hCapital : Text.capitalize name.toList = name.toList) :
    suggest config capability name = name := by
  obtain ⟨hJoined, hSame⟩ := hGuarded.joined_joinWords
  rw [← String.toList_inj, toList_suggest, baseName_of_joined hJoined, hSame, hPrefix, hCapital]

/-- Suggesting is idempotent. -/
theorem suggest_suggest (h : config.HasPlainNames) (capability : Option String) (label : String) :
    suggest config capability (suggest config capability label) =
      suggest config capability label := by
  have hStart : ∀ first ∈ start? config capability, isPlainList first = true := by
    intro first hFirst
    obtain ⟨entry, hEntry, rfl⟩ := exists_entry_of_start? hFirst
    exact h.prefixes entry hEntry
  have hGuarded := (isGuarded_base h label).addPrefix hStart
  apply suggest_eq_self <;> rw [toList_suggest]
  · exact hGuarded.capitalize
  · apply addPrefix_eq_self
    intro first hFirst
    rw [beginsWith_capitalize hGuarded.isLegalList]
    exact beginsWith_addPrefix _ _ first hFirst
  · exact capitalize_capitalize hGuarded.isLegalList

theorem suggest_suggest_default :
    Config.HasPlainNames {} ∧
      suggest {} (some "Slider") "2Hp Bar!!" = "Sld_2Hp_Bar" ∧
      suggest {} (some "Slider") "Sld_2Hp_Bar" = "Sld_2Hp_Bar" := by
  have hNames : Config.HasPlainNames {} := ⟨by decide, by decide⟩
  have hFirst : suggest {} (some "Slider") "2Hp Bar!!" = "Sld_2Hp_Bar" := by decide +kernel
  have hSecond := suggest_suggest hNames (some "Slider") "2Hp Bar!!"
  rw [hFirst] at hSecond
  exact ⟨hNames, hFirst, hSecond⟩

end Identifier

end TemplateBinding
