import TemplateBinding.Artifact.PathName
import TemplateBinding.Error

/-!
# Disks

A disk is a tree of directories with files in it, seen from its working directory.  A path name is
followed one piece at a time: a dot stays, two dots go up, and every piece but the last has to lead
into a directory.  A slash in front starts at the top of the tree, above which there is nothing.

A file is emptied before it is written.  So a device that has no room for the whole content keeps
the beginning of it, and the old content is lost.
-/
namespace TemplateBinding
set_option autoImplicit false

/-- What a file holds.  Bytes that are no text in UTF-8 are kept as they are. -/
inductive Content where
  | text (text : String)
  | binary (bytes : List UInt8)
  deriving Repr, DecidableEq

namespace Content

def bytes : Content → List UInt8
  | text value => value.toUTF8.data.toList
  | binary value => value

def ofBytes (bytes : List UInt8) : Content :=
  match String.fromUTF8? ⟨bytes.toArray⟩ with
  | some value => text value
  | none => binary bytes

/-- The first bytes of a content. -/
def take (content : Content) (count : Nat) : Content := ofBytes (content.bytes.take count)

theorem bytes_ofBytes (bytes : List UInt8) : (ofBytes bytes).bytes = bytes := by
  rw [ofBytes, String.fromUTF8?]
  split
  · rename_i hText
    split at hText
    · cases hText
      rfl
    · cases hText
  · rfl

theorem bytes_take (content : Content) (count : Nat) :
    (content.take count).bytes = content.bytes.take count := bytes_ofBytes _

end Content

/-- Why a file cannot be written though its path leads to it. -/
inductive Obstacle where
  | forbidden
  /-- The device has room for so many bytes. -/
  | room (bytes : Nat)
  deriving Repr, DecidableEq

structure Disk where
  /-- The names that lead from the top to the working directory. -/
  home : List String := []
  /-- The files by the names that lead to them from the top. -/
  files : List (List String × Content) := []
  /-- The directories besides the working directory and those above it. -/
  directories : List (List String) := []
  /-- What keeps files from being written, by their names. -/
  obstacles : List (List String × Obstacle) := []
  deriving Repr, DecidableEq

namespace Disk

/-- What is found at the end of a path.  Something missing has a directory to be made in. -/
inductive Found where
  | directory (names : List String)
  | file (names : List String) (content : Content)
  | missing (names : List String)
  deriving Repr, DecidableEq

def contentAt? (disk : Disk) (names : List String) : Option Content :=
  (disk.files.find? fun entry => entry.1 == names).map (·.2)

def hasDirectory (disk : Disk) (names : List String) : Bool :=
  names.isPrefixOf disk.home || disk.directories.contains names

/-- What stands at the names. -/
def entryAt (disk : Disk) (names : List String) : Found :=
  match disk.contentAt? names with
  | some content => .file names content
  | none => if disk.hasDirectory names then .directory names else .missing names

def nameLimit : Nat := 255

def pathLimit : Nat := 4095

/-- Where a piece of a path leads from a directory. -/
def lookup (disk : Disk) (names : List String) (piece : String) : Except FileFault Found :=
  if piece = "." then .ok (.directory names)
  else if piece = ".." then .ok (.directory names.dropLast)
  else if nameLimit < piece.utf8ByteSize then .error .nameTooLong
  else .ok (disk.entryAt (names ++ [piece]))

/-- Follows the pieces of a path.  A slash at the end asks for a directory. -/
def follow (disk : Disk) (slashAtEnd : Bool) (names : List String) :
    List String → Except FileFault Found
  | [] => .ok (.directory names)
  | [piece] =>
    match disk.lookup names piece with
    | .ok (.file names content) =>
        if slashAtEnd then .error .notDirectory else .ok (.file names content)
    | found => found
  | piece :: pieces =>
    match disk.lookup names piece with
    | .error fault => .error fault
    | .ok (.directory names) => disk.follow slashAtEnd names pieces
    | .ok (.file ..) => .error .notDirectory
    | .ok (.missing _) => .error .notFound

/-- The pieces of a path that name something. -/
def piecesOf (path : String) : List String :=
  ((PathName.pieces path.toList).filter fun piece => !piece.isEmpty).map String.ofList

/-- Why a text cannot be looked up at all, whatever is on the disk. -/
def pathFault? (path : String) : Option FileFault :=
  if path.toList.contains '\x00' then some .nulInName
  else if path.isEmpty then some .notFound
  else if pathLimit < path.utf8ByteSize then some .nameTooLong
  else none

/-- Where a path begins: at the top if there is a slash in front. -/
def startOf (disk : Disk) (path : String) : List String :=
  if path.toList.head? = some '/' then [] else disk.home

def endsInSlash (path : String) : Bool := path.toList.getLast? == some '/'

def locate (disk : Disk) (path : String) : Except FileFault Found :=
  match pathFault? path with
  | some fault => .error fault
  | none => disk.follow (endsInSlash path) (disk.startOf path) (piecesOf path)

/-! ## Reading -/

def isFile (disk : Disk) (path : String) : Bool :=
  match disk.locate path with
  | .ok (.file ..) => true
  | _ => false

def read (disk : Disk) (path : String) : Except FileFault String :=
  match disk.locate path with
  | .error fault => .error fault
  | .ok (.file _ (.text text)) => .ok text
  | .ok (.file _ (.binary _)) => .error .notText
  | .ok (.directory _) => .error .isDirectory
  | .ok (.missing _) => .error .notFound

/-- The names of the files directly in a directory; nothing if there is no such directory. -/
def fileNames (disk : Disk) (path : String) : List String :=
  match disk.locate path with
  | .ok (.directory names) =>
      disk.files.filterMap fun entry =>
        if entry.1.dropLast == names then entry.1.getLast? else none
  | _ => []

/-! ## Writing -/

def remove (disk : Disk) (names : List String) : Disk :=
  { disk with files := disk.files.filter fun entry => entry.1 != names }

def put (disk : Disk) (names : List String) (content : Content) : Disk :=
  { disk with files := (disk.remove names).files ++ [(names, content)] }

def delete (disk : Disk) (path : String) : Except FileFault Disk :=
  match disk.locate path with
  | .error fault => .error fault
  | .ok (.file names _) => .ok (disk.remove names)
  | .ok (.directory _) => .error .isDirectory
  | .ok (.missing _) => .error .notFound

def obstacle? (disk : Disk) (names : List String) : Option Obstacle :=
  (disk.obstacles.find? fun entry => entry.1 == names).map (·.2)

/-- Opens the file with the names, empties it and writes as much of the content as there is room
for.  A file that is forbidden cannot be opened. -/
def fill (disk : Disk) (names : List String) (content : Content) : Except FileFault Unit × Disk :=
  match disk.obstacle? names with
  | none => (.ok (), disk.put names content)
  | some .forbidden => (.error .denied, disk)
  | some (.room bytes) =>
    if content.bytes.length ≤ bytes then (.ok (), disk.put names content)
    else (.error .noSpace, disk.put names (content.take bytes))

/-- Replaces the content of a file, which is made if its directory exists.  Returns the disk also
when the write fails. -/
def write (disk : Disk) (path : String) (content : Content) : Except FileFault Unit × Disk :=
  match disk.locate path with
  | .error fault => (.error fault, disk)
  | .ok (.file names _) => disk.fill names content
  | .ok (.directory _) => (.error .isDirectory, disk)
  | .ok (.missing names) =>
      if endsInSlash path then (.error .isDirectory, disk) else disk.fill names content

/-! ## Preparing a disk -/

/-- Makes the missing directories along the pieces of a path, up to a piece that cannot be one. -/
def makeAlong (disk : Disk) (names : List String) : List String → Disk
  | [] => disk
  | piece :: pieces =>
    match disk.lookup names piece with
    | .ok (.directory next) => disk.makeAlong next pieces
    | .ok (.missing next) =>
        makeAlong { disk with directories := disk.directories ++ [next] } next pieces
    | _ => disk

/-- The piece names no entry of a directory but moves between directories. -/
def isMove (piece : String) : Bool := piece == "." || piece == ".."

/-- The pieces that a directory may be made for.  A dot at the end asks for a directory that is there
already, so the piece in front of it is left out too. -/
def piecesToMake (path : String) : List String :=
  match (piecesOf path).reverse with
  | "." :: earlier => (earlier.dropWhile (· == ".")).tail.reverse
  | _ => piecesOf path

/-- Makes a directory after all directories above it, as far as they can be made. -/
def makeDirectory (disk : Disk) (path : String) : Disk :=
  match pathFault? path with
  | some _ => disk
  | none => disk.makeAlong (disk.startOf path) (piecesToMake path)

/-- Writes a file after making all directories above it.  These stay if the file cannot be written. -/
def makeFile (disk : Disk) (path : String) (content : Content) : Disk :=
  let prepared := (PathName.directory? path).elim disk disk.makeDirectory
  (prepared.write path content).2

/-- Takes away everything in a directory, but not the directory itself. -/
def clear (disk : Disk) (names : List String) : Disk :=
  { disk with
    files := disk.files.filter fun entry => !names.isPrefixOf entry.1
    directories := disk.directories.filter fun directory =>
      directory == names || !names.isPrefixOf directory }

/-- Takes away a file, or a directory with everything in it.  A directory that the path does not call
by its name is emptied and stays. -/
def removeAll (disk : Disk) (path : String) : Disk :=
  match disk.locate path with
  | .ok (.file names _) => disk.remove names
  | .ok (.directory names) =>
      let cleared := disk.clear names
      if (piecesOf path).getLast?.any isMove then cleared
      else { cleared with directories := cleared.directories.filter fun other => other != names }
  | _ => disk

end Disk

end TemplateBinding
