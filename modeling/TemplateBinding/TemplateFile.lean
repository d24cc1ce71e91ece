import TemplateBinding.Digest.Sha256
import TemplateBinding.Disk
import TemplateBinding.Hierarchy

/-!
# Template files

A hierarchy that belongs to a file on a disk.  The hash of the document's text as last written or
opened is remembered, and nothing is written while it stays the same; so a file that is merely laid
out differently is left alone.
-/
namespace TemplateBinding
set_option autoImplicit false

structure TemplateFile where
  path : String
  hierarchy : Hierarchy
  persistedHash : String
  deriving Repr, DecidableEq

namespace TemplateFile

/-- The root of an opened document. -/
def root : NodeId := 0

def openAt (disk : Disk) (path : String) : Except Error TemplateFile :=
  match disk.read path with
  | .error fault => .error (.read path fault)
  | .ok text =>
    match Document.parse? text with
    | none => .error .undecodable
    | some document => .ok ⟨path, ⟨document, 0⟩, Sha256.hashText document.print⟩

/-- Writes the part of the document at a node to the file, unless it is there already.  Returns the
template file and the disk also when that fails. -/
def persist (file : TemplateFile) (disk : Disk) (node : NodeId) :
    Except Error Unit × TemplateFile × Disk :=
  match file.hierarchy.documentAt? node with
  | none => (.error (.unknownNode node), file, disk)
  | some document =>
    let hash := Sha256.hashText document.print
    if hash = file.persistedHash then (.ok (), file, disk)
    else
      match disk.write file.path (.text document.print) with
      | (.error fault, disk) => (.error (.persist file.path fault), file, disk)
      | (.ok _, disk) =>
        match file.hierarchy.persist node with
        | .error error => (.error error, file, disk)
        | .ok hierarchy => (.ok (), ⟨file.path, hierarchy, hash⟩, disk)

end TemplateFile

end TemplateBinding
