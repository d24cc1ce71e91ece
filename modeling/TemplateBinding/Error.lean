import TemplateBinding.Conversion.Stage
import TemplateBinding.Document
import TemplateBinding.Text.Quoted

/-!
# Errors

The causes of failure and their wording.  Findings about a template are no errors: these causes
come from the hierarchy, from files, from undecodable input and from the misuse of a session.
-/
namespace TemplateBinding
set_option autoImplicit false

/-- Why a file could not be read, written or deleted. -/
inductive FileFault where
  | notFound
  | notDirectory
  | isDirectory
  | nameTooLong
  | nulInName
  | notText
  | denied
  | noSpace
  | locked
  | absent
  deriving Repr, DecidableEq

def FileFault.message : FileFault → String
  | notFound => "No such file or directory (os error 2)"
  | notDirectory => "Not a directory (os error 20)"
  | isDirectory => "Is a directory (os error 21)"
  | nameTooLong => "File name too long (os error 36)"
  | nulInName => "file name contained an unexpected NUL byte"
  | notText => "stream did not contain valid UTF-8"
  | denied => "Permission denied (os error 13)"
  | noSpace => "No space left on device (os error 28)"
  | locked => "file is locked"
  | absent => "no such file"

inductive Error where
  | unknownNode (node : NodeId)
  | notAnnotated (node : NodeId)
  | readOnly (node : NodeId)
  | noSuchPath (path : String)
  | ambiguousPath (path : String) (count : Nat)
  | delete (path : String) (fault : FileFault)
  | persist (path : String) (fault : FileFault)
  | read (path : String) (fault : FileFault)
  | undecodable
  | invalidTransition (target : Kind) (source next : Conversion.Stage)
  | blockedByErrors (count : Nat)
  deriving Repr, DecidableEq

def Error.message : Error → String
  | unknownNode node => "Unknown hierarchy node " ++ node.text ++ "."
  | notAnnotated node => "Node " ++ node.text ++ " does not carry a binding annotation."
  | readOnly node => "Node " ++ node.text ++ " is read-only and cannot be modified."
  | noSuchPath path => "No node at path '" ++ path ++ "'."
  | ambiguousPath path count =>
      "Path '" ++ path ++ "' matches " ++ toString count ++
        " nodes; sibling labels must be unique to address one."
  | delete path fault =>
      "Failed to delete artifact " ++ Text.quote path ++ ": " ++ fault.message
  | persist path fault =>
      "Failed to persist template to " ++ Text.quote path ++ ": " ++ fault.message
  | read path fault => "Failed to read " ++ Text.quote path ++ ": " ++ fault.message
  | undecodable => "Invalid JSON document"
  | invalidTransition target source next =>
      "Conversion to " ++ target.name ++ " cannot move from " ++ source.name ++ " to " ++
        next.name ++ "."
  | blockedByErrors count =>
      "Code generation blocked by " ++ toString count ++ " error finding(s)."

end TemplateBinding
