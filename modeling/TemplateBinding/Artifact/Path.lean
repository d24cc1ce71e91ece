import TemplateBinding.Artifact.PathName
import TemplateBinding.Config
import TemplateBinding.Scope
import TemplateBinding.Text.Substitution

/-!
# Artifact paths

Where the files of generated types are.  A path template has placeholders for the output root, the
template's label and the name of the type; they are substituted in this order.
-/
namespace TemplateBinding
set_option autoImplicit false

namespace Artifact

def rootPlaceholder : String := "\x7broot\x7d"

def templatePlaceholder : String := "\x7btemplate\x7d"

def namePlaceholder : String := "\x7bname\x7d"

def render (config : Config) (template name path : String) : String :=
  Text.replace namePlaceholder name
    (Text.replace templatePlaceholder template
      (Text.replace rootPlaceholder config.outputRoot path))

def renderBoth (config : Config) (template name : String) (pair : ArtifactPair) : ArtifactPair :=
  ⟨render config template name pair.primary, render config template name pair.companion⟩

/-- The files of a type with the given name and kind, if the kind owns files. -/
def ofKind? (config : Config) (template : String) (kind : Kind) (name : String) :
    Option ArtifactPair :=
  (config.pathTemplates.ofKind? kind).map (renderBoth config template name)

def ofTemplate (config : Config) (template : String) : ArtifactPair :=
  renderBoth config template template config.pathTemplates.root

/-- The files of the type generated for an entry, if it is a scope. -/
def ofEntry? (config : Config) (template : String) (entry : Entry) : Option ArtifactPair :=
  match entry.binding with
  | none => some (ofTemplate config template)
  | some binding => ofKind? config template binding.kind binding.name

end Artifact

namespace BindingTree

def artifacts? (config : Config) (tree : BindingTree) (slot : Slot) : Option ArtifactPair :=
  Artifact.ofEntry? config tree.templateName slot.toEntry

def artifactPaths (config : Config) (tree : BindingTree) : List String :=
  tree.scopes.flatMap fun place =>
    (tree.artifacts? config place.value).elim [] ArtifactPair.both

/-- The paths that the tree accounts for, in ascending order and each once. -/
def expectedArtifacts (config : Config) (tree : BindingTree) : List String :=
  PathName.sorted (tree.artifactPaths config)

end BindingTree

end TemplateBinding
