import TemplateBinding.Artifact.Path
import TemplateBinding.Disk

/-!
# Stale artifacts

Generated files in the template's own directories that no scope of its tree accounts for.  The
directory of the components holds what other templates need as well, and it is looked at only when
the template's label leads there.
-/
namespace TemplateBinding.Artifact
set_option autoImplicit false

/-- Stands for the name of an element when only the directory of its files matters. -/
def anyName : String := "_"

/-- The directories of the template's own files and of its elements, each once. -/
def ownDirectories (config : Config) (template : String) : List String :=
  let pairs := [ofTemplate config template,
    renderBoth config template anyName config.pathTemplates.element]
  PathName.sorted ((pairs.flatMap ArtifactPair.both).filterMap PathName.directory?)

def isGenerated (config : Config) (name : String) : Bool :=
  (PathName.extension? name.toList).any fun text =>
    config.generatedExtensions.contains (String.ofList text)

/-- The generated files directly in a directory, spelled below the directory's own spelling.  A file
whose path becomes too long is not seen. -/
def generatedIn (config : Config) (disk : Disk) (directory : String) : List String :=
  let names := (disk.fileNames directory).filter (isGenerated config)
  (names.map fun name => directory ++ "/" ++ name).filter disk.isFile

def stale (config : Config) (disk : Disk) (tree : BindingTree) : List String :=
  let found := (ownDirectories config tree.templateName).flatMap (generatedIn config disk)
  PathName.arranged (found.filter fun path =>
    !(tree.artifactPaths config).any fun expected => PathName.same expected path)

end TemplateBinding.Artifact
