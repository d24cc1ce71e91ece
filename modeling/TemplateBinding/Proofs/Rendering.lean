import TemplateBinding.Artifact.Path

/-!
# Rendered paths

No placeholder holds a slash or a dot, so a path template is rendered piece by piece.  With the
default path templates the two files of a type differ only in what follows its base, and the base
ends with the name of the type.
-/
namespace TemplateBinding
set_option autoImplicit false

namespace Text

variable {pattern replacement text left right : List Char} {c : Char}

/-! ## Substitution -/

theorem isPrefixOf_append_cons (left right : List Char) (h : c ∉ pattern) :
    pattern.isPrefixOf (left ++ c :: right) = pattern.isPrefixOf left := by
  induction pattern generalizing left with
  | nil => rfl
  | cons first pattern ih =>
    obtain ⟨hFirst, hRest⟩ := not_or.mp (mt List.mem_cons.mpr h)
    cases left with
    | nil => simp [List.isPrefixOf, Ne.symm hFirst]
    | cons d left => simp only [List.cons_append, List.isPrefixOf, ih left hRest]

theorem replaceAfter_append_cons (hPattern : pattern ≠ []) (h : c ∉ pattern) {skip : Nat}
    (hSkip : skip ≤ left.length) :
    replaceAfter pattern replacement skip (left ++ c :: right) =
      replaceAfter pattern replacement skip left ++
        c :: replaceAfter pattern replacement 0 right := by
  induction left generalizing skip with
  | nil =>
    obtain rfl := Nat.le_zero.mp hSkip
    have hOutside : pattern.isPrefixOf (c :: right) = false := by
      rw [← List.nil_append (c :: right), isPrefixOf_append_cons _ _ h]
      cases pattern with
      | nil => exact absurd rfl hPattern
      | cons first pattern => rfl
    simp [replaceAfter, hOutside]
  | cons d left ih =>
    cases skip with
    | succ skip => exact ih (Nat.le_of_succ_le_succ hSkip)
    | zero =>
      have hSame := isPrefixOf_append_cons (d :: left) right h
      rw [List.cons_append] at hSame ⊢
      rw [replaceAfter, replaceAfter, hSame]
      split
      · rename_i hPrefix
        have hLength := (List.isPrefixOf_iff_prefix.mp hPrefix).length_le
        rw [List.length_cons] at hLength
        rw [ih (by omega), List.append_assoc]
      · rw [ih (Nat.zero_le _), List.cons_append]

/-- A character outside the pattern splits the text into parts that are searched on their own. -/
theorem replaceList_append_cons (h : c ∉ pattern) :
    replaceList pattern replacement (left ++ c :: right) =
      replaceList pattern replacement left ++ c :: replaceList pattern replacement right := by
  rw [replaceList, replaceList, replaceList]
  split
  · rfl
  · rename_i hPattern
    exact replaceAfter_append_cons (by simpa using hPattern) h (Nat.zero_le _)

theorem replaceAfter_of_not_mem (h : c ∉ text) :
    replaceAfter (c :: pattern) replacement 0 text = text := by
  induction text with
  | nil => rfl
  | cons d text ih =>
    obtain ⟨hHead, hRest⟩ := not_or.mp (mt List.mem_cons.mpr h)
    simp [replaceAfter, List.isPrefixOf, hHead, ih hRest]

theorem replaceList_of_not_mem (h : c ∉ text) :
    replaceList (c :: pattern) replacement text = text :=
  replaceAfter_of_not_mem h

theorem mem_replaceAfter {skip : Nat} (h : c ∈ replaceAfter pattern replacement skip text) :
    c ∈ text ∨ c ∈ replacement := by
  induction text generalizing skip with
  | nil => exact .inl h
  | cons d text ih =>
    cases skip with
    | succ skip => exact (ih h).imp_left (List.mem_cons_of_mem d)
    | zero =>
      rw [replaceAfter] at h
      split at h
      · rcases List.mem_append.mp h with hIn | hIn
        · exact .inr hIn
        · exact (ih hIn).imp_left (List.mem_cons_of_mem d)
      · rcases List.mem_cons.mp h with rfl | hIn
        · exact .inl List.mem_cons_self
        · exact (ih hIn).imp_left (List.mem_cons_of_mem d)

theorem mem_replaceList (h : c ∈ replaceList pattern replacement text) :
    c ∈ text ∨ c ∈ replacement := by
  rw [replaceList] at h
  split at h
  · exact .inl h
  · exact mem_replaceAfter h

/-- An occurrence of the pattern leaves the replacement behind, and nothing else takes its first
character away. -/
theorem mem_or_mem_replaceList {d : Char} (hText : c ∈ text) (hReplacement : d ∈ replacement) :
    c ∈ replaceList (c :: pattern) replacement text ∨
      d ∈ replaceList (c :: pattern) replacement text := by
  change c ∈ replaceAfter (c :: pattern) replacement 0 text ∨
    d ∈ replaceAfter (c :: pattern) replacement 0 text
  induction text with
  | nil => cases hText
  | cons first text ih =>
    rw [replaceAfter]
    split
    · exact .inr (List.mem_append_left _ hReplacement)
    · rcases List.mem_cons.mp hText with rfl | hIn
      · exact .inl List.mem_cons_self
      · exact (ih hIn).imp (List.mem_cons_of_mem first) (List.mem_cons_of_mem first)

theorem mem_replaceList_of_mem (hText : c ∈ text) (hReplacement : c ∈ replacement) :
    c ∈ replaceList (c :: pattern) replacement text :=
  (mem_or_mem_replaceList hText hReplacement).elim id id

theorem count_replaceAfter_le {first second : List Char} (h : first.count c ≤ second.count c)
    (skip : Nat) : (replaceAfter pattern first skip text).count c ≤
      (replaceAfter pattern second skip text).count c := by
  induction text generalizing skip with
  | nil => exact Nat.le_refl _
  | cons d text ih =>
    cases skip with
    | succ skip => exact ih skip
    | zero =>
      rw [replaceAfter, replaceAfter]
      split
      · have hRest := ih (pattern.length - 1)
        simp only [List.count_append]
        omega
      · have hRest := ih 0
        simp only [List.count_cons]
        omega

theorem count_replaceList_le {first second : List Char} (h : first.count c ≤ second.count c) :
    (replaceList pattern first text).count c ≤ (replaceList pattern second text).count c := by
  rw [replaceList, replaceList]
  split
  · exact Nat.le_refl _
  · exact count_replaceAfter_le h 0

theorem eq_of_append_cons_eq {d : Char} {first second : List Char}
    (h : left ++ c :: first = right ++ d :: second) (hFirst : d ∉ first) (hSecond : c ∉ second) :
    left = right ∧ c = d ∧ first = second := by
  rcases List.append_eq_append_iff.mp h with ⟨between, hRight, hRest⟩ | ⟨between, hLeft, hRest⟩
  · cases between with
    | nil =>
      obtain ⟨rfl, rfl⟩ := List.cons.inj hRest
      exact ⟨by simpa using hRight.symm, rfl, rfl⟩
    | cons e between =>
      obtain ⟨_, rfl⟩ := List.cons.inj hRest
      exact absurd (List.mem_append_right between List.mem_cons_self) hFirst
  · cases between with
    | nil =>
      obtain ⟨rfl, rfl⟩ := List.cons.inj hRest
      exact ⟨by simpa using hLeft, rfl, rfl⟩
    | cons e between =>
      obtain ⟨_, rfl⟩ := List.cons.inj hRest
      exact absurd (List.mem_append_right between List.mem_cons_self) hSecond

end Text

/-! ## Path templates -/

namespace Artifact

variable {config : Config} {template name : String} {entry : Entry}

def renderList (config : Config) (template name : String) (path : List Char) : List Char :=
  Text.replaceList namePlaceholder.toList name.toList
    (Text.replaceList templatePlaceholder.toList template.toList
      (Text.replaceList rootPlaceholder.toList config.outputRoot.toList path))

theorem toList_render (config : Config) (template name path : String) :
    (render config template name path).toList = renderList config template name path.toList := by
  simp only [render, Text.replace, renderList, String.toList_ofList]

theorem renderList_append_cons {c : Char} (left right : List Char)
    (h : c ∉ rootPlaceholder.toList ∧ c ∉ templatePlaceholder.toList ∧ c ∉ namePlaceholder.toList) :
    renderList config template name (left ++ c :: right) =
      renderList config template name left ++ c :: renderList config template name right := by
  simp only [renderList, Text.replaceList_append_cons h.1, Text.replaceList_append_cons h.2.1,
    Text.replaceList_append_cons h.2.2]

theorem renderList_of_not_mem {path : List Char} (h : '\x7b' ∉ path) :
    renderList config template name path = path := by
  have hReplace (rest replacement : List Char) :
      Text.replaceList ('\x7b' :: rest) replacement path = path := Text.replaceList_of_not_mem h
  rw [renderList]
  exact (congrArg _ ((congrArg _ (hReplace _ _)).trans (hReplace _ _))).trans (hReplace _ _)

theorem renderList_name :
    renderList config template name namePlaceholder.toList = name.toList := by
  have hRoot : Text.replaceList rootPlaceholder.toList config.outputRoot.toList
      namePlaceholder.toList = namePlaceholder.toList := rfl
  have hTemplate : Text.replaceList templatePlaceholder.toList template.toList
      namePlaceholder.toList = namePlaceholder.toList := rfl
  rw [renderList, hRoot, hTemplate]
  exact List.append_nil name.toList

theorem renderList_template :
    renderList config template name templatePlaceholder.toList =
      Text.replaceList namePlaceholder.toList name.toList template.toList := by
  have hRoot : Text.replaceList rootPlaceholder.toList config.outputRoot.toList
      templatePlaceholder.toList = templatePlaceholder.toList := rfl
  have hTemplate : Text.replaceList templatePlaceholder.toList template.toList
      templatePlaceholder.toList = template.toList := List.append_nil template.toList
  rw [renderList, hRoot, hTemplate]

theorem render_append_extension (path : String) {extension : List Char}
    (h : '\x7b' ∉ extension) :
    render config template name (path ++ String.ofList ('.' :: extension)) =
      render config template name path ++ String.ofList ('.' :: extension) := by
  apply String.toList_inj.mp
  simp only [toList_render, String.toList_append, String.toList_ofList]
  rw [renderList_append_cons _ _ (by decide), renderList_of_not_mem h]

/-! ## Bases -/

def typeName (template : String) (entry : Entry) : String :=
  entry.binding.elim template fun binding => binding.name

/-- What the default path templates of a type have in common; only the template itself has no
kind. -/
def baseTemplate : Option Kind → String
  | none => "\x7broot\x7d/\x7btemplate\x7d/\x7btemplate\x7d"
  | some .component => "\x7broot\x7d/Components/\x7bname\x7d"
  | some _ => "\x7broot\x7d/\x7btemplate\x7d/\x7bname\x7d"

/-- The path of both files of a type up to their extensions. -/
def base (config : Config) (template : String) (entry : Entry) : String :=
  render config template (typeName template entry) (baseTemplate entry.kind?)

def filesOf (base : String) : ArtifactPair := ⟨base ++ ".cs", base ++ ".Designer" ++ ".cs"⟩

theorem renderBoth_filesOf (config : Config) (template name path : String) :
    renderBoth config template name (filesOf path) =
      filesOf (render config template name path) := by
  have hPrimary : ".cs" = String.ofList ('.' :: "cs".toList) := by decide
  have hCompanion (path : String) : path ++ ".Designer" ++ ".cs" =
      path ++ String.ofList ('.' :: "Designer.cs".toList) := by
    rw [String.append_assoc]
    exact congrArg _ (by decide)
  rw [renderBoth, filesOf, filesOf, hCompanion, hCompanion, hPrimary,
    render_append_extension _ (by decide), render_append_extension _ (by decide)]

theorem ofEntry?_of_default (template : String) (hTemplates : config.pathTemplates = {})
    (hScope : entry.isScope = true) :
    ofEntry? config template entry = some (filesOf (base config template entry)) := by
  rw [Artifact.ofEntry?, base, typeName, Entry.kind?, ← renderBoth_filesOf]
  cases hBinding : entry.binding with
  | none =>
    dsimp only
    rw [ofTemplate, hTemplates]
    rfl
  | some binding =>
    rw [Entry.isScope, Entry.kind?, hBinding] at hScope
    dsimp only
    rw [ofKind?, hTemplates]
    cases hKind : binding.kind with
    | element => rw [Option.map_some, Option.elim_some, hKind]; rfl
    | component => rw [Option.map_some, Option.elim_some, hKind]; rfl
    | member | leaf =>
      rw [Option.map_some, hKind] at hScope
      cases hScope

def directoryTemplate : Option Kind → String
  | some .component => "\x7broot\x7d/Components"
  | _ => "\x7broot\x7d/\x7btemplate\x7d"

/-- The directory of both files of a type, for the default path templates. -/
def directory (config : Config) (template : String) (entry : Entry) : String :=
  render config template (typeName template entry) (directoryTemplate entry.kind?)

theorem toList_base_of_binding (config : Config) (template : String) {binding : Binding}
    (h : entry.binding = some binding) : (base config template entry).toList =
      (directory config template entry).toList ++ '/' :: binding.name.toList := by
  have hTemplate : (baseTemplate (some binding.kind)).toList =
      (directoryTemplate (some binding.kind)).toList ++ '/' :: namePlaceholder.toList := by
    cases binding.kind <;> rfl
  rw [base, directory, typeName, Entry.kind?, h, Option.elim_some, Option.map_some, toList_render,
    hTemplate, renderList_append_cons _ _ (by decide), renderList_name, toList_render]

theorem toList_base_of_root (config : Config) (template : String) (h : entry.binding = none) :
    (base config template entry).toList = (directory config template entry).toList ++
      '/' :: Text.replaceList namePlaceholder.toList template.toList template.toList := by
  have hTemplate : (baseTemplate none).toList =
      (directoryTemplate none).toList ++ '/' :: templatePlaceholder.toList := rfl
  rw [base, directory, typeName, Entry.kind?, h, Option.elim_none, Option.map_none, toList_render,
    hTemplate, renderList_append_cons _ _ (by decide), renderList_template, toList_render]

/-- The last part of a base is the name of the type, but for a template whose label has a
placeholder in it: what comes of such a label has a brace. -/
theorem exists_last (config : Config) (template : String) (entry : Entry) :
    ∃ last, (base config template entry).toList =
        (directory config template entry).toList ++ '/' :: last ∧
      ('/' ∉ (typeName template entry).toList → '/' ∉ last) ∧
        ('\x7b' ∉ last ∨ '\x7b' ∉ (typeName template entry).toList →
          last = (typeName template entry).toList) := by
  cases hBinding : entry.binding with
  | some binding =>
    rw [typeName, hBinding]
    exact ⟨_, toList_base_of_binding config template hBinding, id, fun _ => rfl⟩
  | none =>
    rw [typeName, hBinding]
    refine ⟨_, toList_base_of_root config template hBinding, fun hSlash hIn => ?_,
      fun hBrace => Text.replaceList_of_not_mem fun hIn => ?_⟩
    · exact (Text.mem_replaceList hIn).elim hSlash hSlash
    · rcases hBrace with hLast | hLabel
      · exact hLast (Text.mem_replaceList_of_mem hIn hIn)
      · exact hLabel hIn

end Artifact

end TemplateBinding
