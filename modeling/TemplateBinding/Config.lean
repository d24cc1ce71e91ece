import TemplateBinding.Json.Reader
import TemplateBinding.Kind

/-!
# Configuration

Every setting has a default, so an empty object configures the library.  A table that is given
replaces the default table as a whole.
-/
namespace TemplateBinding
set_option autoImplicit false

/-- When a conversion changes the kind of a node, compared with the deletion of its files. -/
inductive KindCommit where
  | beforeDeletions
  | afterDeletions
  deriving Repr, DecidableEq

namespace KindCommit

def name : KindCommit → String
  | beforeDeletions => "beforeDeletions"
  | afterDeletions => "afterDeletions"

def named? (name : String) : Option KindCommit :=
  [beforeDeletions, afterDeletions].find? fun commit => commit.name == name

end KindCommit

/-- The two files of a generated type: the primary one and the companion with its declarations. -/
structure ArtifactPair where
  primary : String
  companion : String
  deriving Repr, DecidableEq

def ArtifactPair.both (pair : ArtifactPair) : List String := [pair.primary, pair.companion]

/-- The path templates of the files that are generated for the template itself, for an element and
for a component. -/
structure PathTemplates where
  root : ArtifactPair :=
    ⟨"\x7broot\x7d/\x7btemplate\x7d/\x7btemplate\x7d.cs",
      "\x7broot\x7d/\x7btemplate\x7d/\x7btemplate\x7d.Designer.cs"⟩
  element : ArtifactPair :=
    ⟨"\x7broot\x7d/\x7btemplate\x7d/\x7bname\x7d.cs",
      "\x7broot\x7d/\x7btemplate\x7d/\x7bname\x7d.Designer.cs"⟩
  component : ArtifactPair :=
    ⟨"\x7broot\x7d/Components/\x7bname\x7d.cs",
      "\x7broot\x7d/Components/\x7bname\x7d.Designer.cs"⟩
  deriving Repr, DecidableEq

structure Config where
  outputRoot : String := "Assets/Scripts/UI"
  pathTemplates : PathTemplates := {}
  /-- What suggested names begin with, by capability. -/
  namePrefixes : Table String := [
    ("button", "Btn"), ("canvasgroup", "Cg"), ("dropdown", "Drp"), ("image", "Img"),
    ("inputfield", "Inp"), ("rawimage", "RawImg"), ("scrollbar", "Scb"), ("scrollrect", "Scr"),
    ("slider", "Sld"), ("text", "Txt"), ("toggle", "Tog")]
  /-- The name suggested for a label that leaves nothing. -/
  fallbackName : String := "Node"
  /-- The type given to a node without capabilities.  A blank one is no type. -/
  fallbackTypeReference : String := "GameObject"
  /-- Words that are no names, besides the keywords. -/
  extraReservedWords : List String := []
  /-- The kind given to a node in a batch, by capability. -/
  kindByCapability : Table Kind := []
  generatedExtensions : List String := ["cs"]
  kindCommit : KindCommit := .beforeDeletions
  deriving Repr, DecidableEq

def PathTemplates.ofKind? (templates : PathTemplates) : Kind → Option ArtifactPair
  | .element => some templates.element
  | .component => some templates.component
  | .member | .leaf => none

theorem PathTemplates.isSome_ofKind? (templates : PathTemplates) (kind : Kind) :
    (templates.ofKind? kind).isSome = kind.requiresArtifact := by cases kind <;> rfl

/-! ## JSON form -/

def PathTemplates.toJson (templates : PathTemplates) : Json := .object [
  ("rootPrimary", .string templates.root.primary),
  ("rootCompanion", .string templates.root.companion),
  ("elementPrimary", .string templates.element.primary),
  ("elementCompanion", .string templates.element.companion),
  ("componentPrimary", .string templates.component.primary),
  ("componentCompanion", .string templates.component.companion)]

def PathTemplates.decode (limit : Nat) (json : Json) : Option PathTemplates := do
  let names := ["rootPrimary", "rootCompanion", "elementPrimary", "elementCompanion",
    "componentPrimary", "componentCompanion"]
  let defaults : PathTemplates := {}
  let (fields, _) ← Json.record? names limit json
  let rootPrimary ← fields.withDefault "rootPrimary" defaults.root.primary Json.string?
  let rootCompanion ← fields.withDefault "rootCompanion" defaults.root.companion Json.string?
  let elementPrimary ← fields.withDefault "elementPrimary" defaults.element.primary Json.string?
  let elementCompanion ←
    fields.withDefault "elementCompanion" defaults.element.companion Json.string?
  let componentPrimary ←
    fields.withDefault "componentPrimary" defaults.component.primary Json.string?
  let componentCompanion ←
    fields.withDefault "componentCompanion" defaults.component.companion Json.string?
  return ⟨⟨rootPrimary, rootCompanion⟩, ⟨elementPrimary, elementCompanion⟩,
    ⟨componentPrimary, componentCompanion⟩⟩

namespace Config

def toJson (config : Config) : Json := .object [
  ("outputRoot", .string config.outputRoot),
  ("pathTemplates", config.pathTemplates.toJson),
  ("namePrefixes", .object (config.namePrefixes.map fun (key, text) => (key, .string text))),
  ("fallbackName", .string config.fallbackName),
  ("fallbackTypeReference", .string config.fallbackTypeReference),
  ("extraReservedWords", Json.strings config.extraReservedWords),
  ("kindByCapability", .object (config.kindByCapability.map fun (key, kind) => (key, kind.toJson))),
  ("generatedExtensions", Json.strings config.generatedExtensions),
  ("kindCommit", .string config.kindCommit.name)]

def decode (limit : Nat) (json : Json) : Option Config := do
  let names := ["outputRoot", "pathTemplates", "namePrefixes", "fallbackName",
    "fallbackTypeReference", "extraReservedWords", "kindByCapability", "generatedExtensions",
    "kindCommit"]
  let defaults : Config := {}
  let (fields, limit) ← Json.record? names limit json
  let outputRoot ← fields.withDefault "outputRoot" defaults.outputRoot Json.string?
  let pathTemplates ←
    fields.withDefault "pathTemplates" defaults.pathTemplates (PathTemplates.decode limit)
  let namePrefixes ← fields.withDefault "namePrefixes" defaults.namePrefixes
    (Json.tableOf (fun _ => Json.string?) limit)
  let fallbackName ← fields.withDefault "fallbackName" defaults.fallbackName Json.string?
  let fallbackTypeReference ←
    fields.withDefault "fallbackTypeReference" defaults.fallbackTypeReference Json.string?
  let extraReservedWords ←
    fields.withDefault "extraReservedWords" defaults.extraReservedWords (Json.strings? limit)
  let kindByCapability ← fields.withDefault "kindByCapability" defaults.kindByCapability
    (Json.tableOf Kind.decode limit)
  let generatedExtensions ←
    fields.withDefault "generatedExtensions" defaults.generatedExtensions (Json.strings? limit)
  let kindCommit ← fields.withDefault "kindCommit" defaults.kindCommit
    (Json.choice KindCommit.named? limit)
  return { outputRoot, pathTemplates, namePrefixes, fallbackName, fallbackTypeReference,
           extraReservedWords, kindByCapability, generatedExtensions, kindCommit }

/-- The number of containers that a text may nest. -/
def nestingLimit : Nat := 127

def parse? (text : String) : Option Config := (Json.read? text).bind (decode nestingLimit)

end Config

end TemplateBinding
