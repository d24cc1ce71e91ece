import TemplateBinding.Proofs.Replacement

/-!
# Verbatim rendering

A path template can be read once, from left to right, and all its placeholders be replaced at the
same time; then no value is ever searched.  Rendering replaces one placeholder after the other
instead.  Both come to the same for all names just if no placeholder turns up among the values, alone
or together with what stands around them.
-/
namespace TemplateBinding
set_option autoImplicit false

namespace Artifact

/-! ## Path templates in one pass -/

inductive Placeholder where
  | root
  | template
  | name
  deriving Repr, DecidableEq

namespace Placeholder

def text : Placeholder → List Char
  | root => rootPlaceholder.toList
  | template => templatePlaceholder.toList
  | name => namePlaceholder.toList

/-- The placeholder that a text begins with. -/
def at? (text : List Char) : Option Placeholder :=
  [root, template, name].find? fun placeholder => placeholder.text.isPrefixOf text

theorem prefix_of_at? {placeholder : Placeholder} {text : List Char}
    (h : at? text = some placeholder) : placeholder.text <+: text := by
  rw [at?] at h
  have hFound := List.find?_some h
  exact List.isPrefixOf_iff_prefix.mp hFound

theorem not_prefix_of_at? {text : List Char} (h : at? text = none) (placeholder : Placeholder) :
    ¬ placeholder.text <+: text := by
  intro hPrefix
  have hMem : placeholder ∈ [root, template, name] := by cases placeholder <;> decide
  exact List.find?_eq_none.mp h placeholder hMem (List.isPrefixOf_iff_prefix.mpr hPrefix)

theorem exists_body (placeholder : Placeholder) :
    ∃ body, placeholder.text = '\x7b' :: body ∧ '\x7b' ∉ body := by
  cases placeholder <;> exact ⟨_, rfl, by decide⟩

/-- Another placeholder is no beginning of an occurrence. -/
theorem isInfix_text_append {placeholder other : Placeholder} (h : other ≠ placeholder)
    (right : List Char) :
    placeholder.text <:+: other.text ++ right ↔ placeholder.text <:+: right := by
  have hHere : ¬ placeholder.text <+: other.text ++ right := by
    rw [← List.isPrefixOf_iff_prefix]
    cases placeholder <;> cases other <;> first | exact absurd rfl h | exact Bool.false_ne_true
  obtain ⟨body, hText, _⟩ := exists_body placeholder
  obtain ⟨otherBody, hOther, hFirst⟩ := exists_body other
  rw [hText, hOther] at hHere ⊢
  rw [List.cons_append] at hHere ⊢
  rw [List.infix_cons_iff, or_iff_right hHere, Text.isInfix_append_of_not_mem hFirst]

end Placeholder

inductive Segment where
  | char (c : Char)
  | hole (placeholder : Placeholder)
  deriving Repr, DecidableEq

/-- The segments of a text without the first `skip` characters: they are the rest of a placeholder
that was read already. -/
def segmentsAfter : Nat → List Char → List Segment
  | _, [] => []
  | skip + 1, _ :: rest => segmentsAfter skip rest
  | 0, c :: rest =>
    match Placeholder.at? (c :: rest) with
    | some placeholder => .hole placeholder :: segmentsAfter (placeholder.text.length - 1) rest
    | none => .char c :: segmentsAfter 0 rest

def segments (path : String) : List Segment := segmentsAfter 0 path.toList

/-- What is put into the holes. -/
def values (root template name : List Char) : Placeholder → List Char
  | .root => root
  | .template => template
  | .name => name

def Segment.fill (values : Placeholder → List Char) : Segment → List Char
  | char c => [c]
  | hole placeholder => values placeholder

def fill (values : Placeholder → List Char) (segments : List Segment) : List Char :=
  segments.flatMap (Segment.fill values)

/-- Every placeholder of the path is replaced by its value, all at the same time. -/
def filled (config : Config) (template name path : String) : String :=
  String.ofList
    (fill (values config.outputRoot.toList template.toList name.toList) (segments path))

def filledBoth (config : Config) (template name : String) (pair : ArtifactPair) : ArtifactPair :=
  ⟨filled config template name pair.primary, filled config template name pair.companion⟩

/-- The only braces are those of placeholders. -/
def WellBraced (path : String) : Prop :=
  ∀ segment ∈ segments path, segment ≠ .char '\x7b' ∧ segment ≠ .char '\x7d'

instance (path : String) : Decidable (WellBraced path) :=
  inferInstanceAs (Decidable (∀ segment ∈ segments path, _))

/-- No placeholder turns up that the path does not have itself.  Where the values are searched, a
slash stands for the placeholder that is being replaced, for no placeholder has a slash. -/
structure Inert (config : Config) (template name path : String) : Prop where
  afterRoot : template = templatePlaceholder ∨ ¬ templatePlaceholder.toList <:+:
    fill (values config.outputRoot.toList ['/'] namePlaceholder.toList) (segments path)
  afterTemplate : name = namePlaceholder ∨ ¬ namePlaceholder.toList <:+:
    fill (values config.outputRoot.toList template.toList ['/']) (segments path)

/-! ## One placeholder after the other -/

variable {config : Config} {template name path : String}

theorem exists_runs (placeholder : Placeholder) (others : Placeholder → List Char)
    (segments : List Segment) : ∃ run runs, ∀ values : Placeholder → List Char,
      (∀ other, other ≠ placeholder → values other = others other) →
      fill values segments = (values placeholder).intercalate (run :: runs) := by
  induction segments with
  | nil => exact ⟨[], [], fun values _ => by simp [fill]⟩
  | cons segment segments ih =>
    obtain ⟨run, runs, hRuns⟩ := ih
    by_cases hHole : segment = .hole placeholder
    · refine ⟨[], run :: runs, fun values hValues => ?_⟩
      rw [hHole, fill, List.flatMap_cons, List.intercalate_cons_cons, ← hRuns values hValues]
      rfl
    · refine ⟨segment.fill others ++ run, runs, fun values hValues => ?_⟩
      have hSegment : segment.fill values = segment.fill others := by
        cases segment with
        | char c => rfl
        | hole other => exact hValues other fun hSame => hHole (congrArg _ hSame)
      have hHead : (values placeholder).intercalate ((segment.fill others ++ run) :: runs) =
          segment.fill others ++ (values placeholder).intercalate (run :: runs) := by
        cases runs with
        | nil => simp
        | cons => simp [List.intercalate_cons_cons]
      rw [hHead, ← hRuns values hValues, ← hSegment]
      rfl

/-- One step of rendering puts a value into the holes of a placeholder and changes nothing else,
just if the placeholder occurs nowhere else. -/
theorem replaceList_fill_iff (placeholder : Placeholder)
    (before after marked : Placeholder → List Char)
    (hBefore : before placeholder = placeholder.text) (hMarked : marked placeholder = ['/'])
    (hAfter : ∀ other, other ≠ placeholder → after other = before other)
    (hOthers : ∀ other, other ≠ placeholder → marked other = before other)
    (segments : List Segment) :
    Text.replaceList placeholder.text (after placeholder) (fill before segments) =
        fill after segments ↔
      after placeholder = placeholder.text ∨ ¬ placeholder.text <:+: fill marked segments := by
  obtain ⟨run, runs, hRuns⟩ := exists_runs placeholder before segments
  obtain ⟨body, hText, hFirst⟩ := placeholder.exists_body
  have hSlash : '/' ∉ placeholder.text := by cases placeholder <;> decide
  have hStep := Text.replaceAfter_intercalate_eq_iff hFirst (after placeholder) (run :: runs)
  rw [← hText] at hStep
  rw [hRuns before fun _ _ => rfl, hRuns after hAfter, hRuns marked hOthers, hBefore, hMarked,
    Text.isInfix_intercalate hSlash (by rw [hText]; exact List.cons_ne_nil _ _)]
  simp only [not_exists, not_and]
  rw [← hStep, hText]
  rfl

theorem segmentsAfter_eq_drop (skip : Nat) (text : List Char) :
    segmentsAfter skip text = segmentsAfter 0 (text.drop skip) := by
  induction skip generalizing text with
  | zero => rfl
  | succ skip ih =>
    cases text with
    | nil => rfl
    | cons c rest => exact ih rest

/-- The first step replaces the placeholders of the path and nothing else. -/
theorem replaceAfter_root (root text : List Char) :
    Text.replaceAfter rootPlaceholder.toList root 0 text =
      fill (values root templatePlaceholder.toList namePlaceholder.toList)
        (segmentsAfter 0 text) := by
  match text with
  | [] => rfl
  | c :: rest =>
    rw [segmentsAfter]
    cases hAt : Placeholder.at? (c :: rest) with
    | none =>
      have hHere : ¬ rootPlaceholder.toList <+: c :: rest :=
        Placeholder.not_prefix_of_at? hAt .root
      rw [Text.replaceAfter, if_neg (mt List.isPrefixOf_iff_prefix.mp hHere),
        replaceAfter_root root rest]
      rfl
    | some placeholder =>
      obtain ⟨later, hLater⟩ := Placeholder.prefix_of_at? hAt
      have hShorter : later.length < (c :: rest).length := by
        rw [← hLater, List.length_append]
        cases placeholder <;> exact Nat.lt_add_of_pos_left (by decide)
      have hDrop : rest.drop (placeholder.text.length - 1) = later := by
        cases placeholder <;> cases hLater <;> rfl
      dsimp only
      rw [segmentsAfter_eq_drop, hDrop, ← hLater, fill, List.flatMap_cons, ← fill,
        ← replaceAfter_root root later]
      cases placeholder with
      | root => exact Text.replaceAfter_append _ _ root later
      | template | name => rfl
termination_by text.length

theorem renderList_eq (config : Config) (template name path : String) :
    renderList config template name path.toList =
      Text.replaceList namePlaceholder.toList name.toList
        (Text.replaceList templatePlaceholder.toList template.toList
          (fill (values config.outputRoot.toList templatePlaceholder.toList
            namePlaceholder.toList) (segments path))) := by
  rw [renderList]
  exact congrArg _ (congrArg _ (replaceAfter_root config.outputRoot.toList path.toList))

theorem replaceTemplate_iff (root template : String) (segments : List Segment) :
    Text.replaceList templatePlaceholder.toList template.toList
        (fill (values root.toList templatePlaceholder.toList namePlaceholder.toList) segments) =
      fill (values root.toList template.toList namePlaceholder.toList) segments ↔
    template = templatePlaceholder ∨ ¬ templatePlaceholder.toList <:+:
      fill (values root.toList ['/'] namePlaceholder.toList) segments := by
  have hStep := replaceList_fill_iff .template
    (values root.toList templatePlaceholder.toList namePlaceholder.toList)
    (values root.toList template.toList namePlaceholder.toList)
    (values root.toList ['/'] namePlaceholder.toList)
    rfl rfl (by rintro (_ | _ | _) h <;> first | rfl | exact absurd rfl h)
    (by rintro (_ | _ | _) h <;> first | rfl | exact absurd rfl h) segments
  rw [← String.toList_inj]
  exact hStep

theorem replaceName_iff (root template name : String) (segments : List Segment) :
    Text.replaceList namePlaceholder.toList name.toList
        (fill (values root.toList template.toList namePlaceholder.toList) segments) =
      fill (values root.toList template.toList name.toList) segments ↔
    name = namePlaceholder ∨ ¬ namePlaceholder.toList <:+:
      fill (values root.toList template.toList ['/']) segments := by
  have hStep := replaceList_fill_iff .name
    (values root.toList template.toList namePlaceholder.toList)
    (values root.toList template.toList name.toList)
    (values root.toList template.toList ['/'])
    rfl rfl (by rintro (_ | _ | _) h <;> first | rfl | exact absurd rfl h)
    (by rintro (_ | _ | _) h <;> first | rfl | exact absurd rfl h) segments
  rw [← String.toList_inj]
  exact hStep

theorem Inert.render (h : Inert config template name path) :
    Artifact.render config template name path = filled config template name path := by
  apply String.toList_inj.mp
  rw [toList_render, renderList_eq, (replaceTemplate_iff _ _ _).mpr h.afterRoot,
    (replaceName_iff _ _ _ _).mpr h.afterTemplate, filled, String.toList_ofList]

theorem forall_render_iff (config : Config) (template path : String) :
    (∀ name, render config template name path = filled config template name path) ↔
      ∀ name, Inert config template name path := by
  constructor
  · intro hRender
    have hLists (name : String) := congrArg String.toList (hRender name)
    simp only [toList_render, renderList_eq, filled, String.toList_ofList] at hLists
    -- The name that is its own placeholder shows what the second step does.
    have hTemplate : Text.replaceList templatePlaceholder.toList template.toList
        (fill (values config.outputRoot.toList templatePlaceholder.toList
          namePlaceholder.toList) (segments path)) =
        fill (values config.outputRoot.toList template.toList namePlaceholder.toList)
          (segments path) :=
      (Text.replaceList_self _ _).symm.trans (hLists namePlaceholder)
    refine fun name => ⟨(replaceTemplate_iff _ _ _).mp hTemplate,
      (replaceName_iff _ _ _ _).mp ?_⟩
    rw [← hTemplate]
    exact hLists name
  · exact fun hInert name => (hInert name).render

/-! ## Values without braces -/

theorem not_isInfix_fill (placeholder : Placeholder) {values : Placeholder → List Char}
    {segments : List Segment} (hChars : ∀ segment ∈ segments, segment ≠ .char '\x7b')
    (hValues : ∀ other, '\x7b' ∉ values other ∨ other ≠ placeholder ∧ values other = other.text) :
    ¬ placeholder.text <:+: fill values segments := by
  obtain ⟨body, hText, _⟩ := placeholder.exists_body
  induction segments with
  | nil =>
    rw [hText]
    simp [fill]
  | cons segment segments ih =>
    have hRest := ih fun other hOther => hChars other (List.mem_cons_of_mem _ hOther)
    have hHere := hChars segment List.mem_cons_self
    rw [fill, List.flatMap_cons, ← fill]
    cases segment with
    | char c =>
      have hChar : '\x7b' ∉ [c] := by
        simpa [eq_comm] using hHere
      rw [hText] at hRest ⊢
      exact mt (Text.isInfix_append_of_not_mem hChar).mp hRest
    | hole other =>
      rcases hValues other with hFree | ⟨hOther, hSelf⟩
      · rw [hText] at hRest ⊢
        exact mt (Text.isInfix_append_of_not_mem hFree).mp hRest
      · rw [Segment.fill, hSelf]
        exact mt (Placeholder.isInfix_text_append hOther _).mp hRest

theorem inert_of_wellBraced (hRoot : '\x7b' ∉ config.outputRoot.toList)
    (hTemplate : '\x7b' ∉ template.toList) (h : WellBraced path) (name : String) :
    Inert config template name path := by
  have hChars : ∀ segment ∈ segments path, segment ≠ .char '\x7b' :=
    fun segment hIn => (h segment hIn).1
  have hSlash : '\x7b' ∉ ['/'] := by decide
  constructor
  · right
    apply not_isInfix_fill .template hChars
    rintro (_ | _ | _)
    · exact .inl hRoot
    · exact .inl hSlash
    · exact .inr ⟨nofun, rfl⟩
  · right
    apply not_isInfix_fill .name hChars
    rintro (_ | _ | _)
    · exact .inl hRoot
    · exact .inl hTemplate
    · exact .inl hSlash

/-! ## The files of a type -/

theorem renderBoth_eq_filledBoth {pair : ArtifactPair}
    (h : ∀ path ∈ pair.both, Inert config template name path) :
    renderBoth config template name pair = filledBoth config template name pair := by
  rw [renderBoth, filledBoth, (h _ List.mem_cons_self).render,
    (h _ (List.mem_cons_of_mem _ List.mem_cons_self)).render]

theorem forall_renderBoth_iff (config : Config) (template : String) (pair : ArtifactPair) :
    (∀ name, renderBoth config template name pair = filledBoth config template name pair) ↔
      ∀ path ∈ pair.both, ∀ name, Inert config template name path := by
  simp only [renderBoth, filledBoth, ArtifactPair.mk.injEq, forall_and, forall_render_iff,
    ArtifactPair.both, List.mem_cons, List.not_mem_nil, or_false, forall_eq_or_imp, forall_eq]

/-- When the files of the types of a template are where its path templates say. -/
structure RendersVerbatim (config : Config) (template : String) : Prop where
  ofKind : ∀ kind,
    (∀ name, ofKind? config template kind name =
      (config.pathTemplates.ofKind? kind).map (filledBoth config template name)) ↔
    ∀ pair, config.pathTemplates.ofKind? kind = some pair →
      ∀ path ∈ pair.both, ∀ name, Inert config template name path
  ofTemplate : (∀ path ∈ config.pathTemplates.root.both, Inert config template template path) →
    Artifact.ofTemplate config template =
      filledBoth config template template config.pathTemplates.root
  /-- Values can only meet a placeholder if the output root or the label has a brace in it. -/
  unbraced : '\x7b' ∉ config.outputRoot.toList → '\x7b' ∉ template.toList →
    ∀ path, WellBraced path → ∀ name, Inert config template name path

theorem rendersVerbatim (config : Config) (template : String) :
    RendersVerbatim config template where
  ofKind := by
    intro kind
    simp only [Artifact.ofKind?]
    cases config.pathTemplates.ofKind? kind with
    | none => simp
    | some pair =>
      have hPair := forall_renderBoth_iff config template pair
      simpa using hPair
  ofTemplate hInert := renderBoth_eq_filledBoth hInert
  unbraced hRoot hTemplate _ hPath name := inert_of_wellBraced hRoot hTemplate hPath name

theorem wellBraced_default (kind : Kind) : ∀ pair, PathTemplates.ofKind? {} kind = some pair →
    ∀ path ∈ pair.both, WellBraced path := by
  rintro pair hPair
  cases kind <;> cases hPair <;> decide

/-- A label that reads like the placeholder of the name is replaced by the name. -/
theorem not_forall_ofKind_verbatim : ¬ ∀ (config : Config) (template name : String) (kind : Kind),
    (∀ pair, config.pathTemplates.ofKind? kind = some pair → ∀ path ∈ pair.both, WellBraced path) →
    ofKind? config template kind name =
      (config.pathTemplates.ofKind? kind).map (filledBoth config template name) := by
  intro h
  have hItem := h {} namePlaceholder "Item" .element (wellBraced_default .element)
  have hRendered : ofKind? {} namePlaceholder .element "Item" =
      some (filesOf "Assets/Scripts/UI/Item/Item") := by decide
  have hFilled : (PathTemplates.ofKind? {} .element).map (filledBoth {} namePlaceholder "Item") =
      some (filesOf "Assets/Scripts/UI/\x7bname\x7d/Item") := by decide
  rw [hRendered, hFilled] at hItem
  revert hItem
  decide

end Artifact

end TemplateBinding
