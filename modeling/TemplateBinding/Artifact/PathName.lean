/-!
# Path names

A path name is a text whose components are separated by slashes.  Repeated slashes and inner or
trailing dots do not change the path; a leading slash and a leading dot are components.  Paths are
compared component by component, so two spellings may denote one path.
-/
namespace TemplateBinding.PathName
set_option autoImplicit false

inductive Component where
  | root
  | current
  | parent
  | name (text : List Char)
  deriving Repr, DecidableEq

namespace Component

def rank : Component → Nat
  | root => 0
  | current => 1
  | parent => 2
  | name _ => 3

/-- Names come last and are compared character by character. -/
def before : Component → Component → Bool
  | name first, name second => first < second
  | first, second => first.rank < second.rank

end Component

/-- The pieces of a text between its slashes. -/
def pieces : List Char → List (List Char)
  | [] => [[]]
  | c :: rest =>
      if c = '/' then [] :: pieces rest
      else match pieces rest with
        | piece :: later => (c :: piece) :: later
        | [] => [[c]]

def joinPieces (pieces : List (List Char)) : List Char := ['/'].intercalate pieces

/-- What begins a path before its pieces, and the pieces of the rest. -/
def splitHead (path : List Char) : List Char × List (List Char) :=
  match path with
  | '/' :: rest => (['/'], pieces rest)
  | ['.'] => (['.'], [[]])
  | '.' :: '/' :: rest => (['.'], [] :: pieces rest)
  | path => ([], pieces path)

/-- The piece stays where it is. -/
def isIdle (piece : List Char) : Bool := piece == [] || piece == ['.']

def ofPiece (piece : List Char) : Component :=
  if piece = ['.', '.'] then .parent else .name piece

def components (path : String) : List Component :=
  let (head, pieces) := splitHead path.toList
  (match head with
    | '/' :: _ => [Component.root]
    | '.' :: _ => [Component.current]
    | _ => []) ++ (pieces.filter fun piece => !isIdle piece).map ofPiece

def same (first second : String) : Bool := components first == components second

def beforeComponents : List Component → List Component → Bool
  | [], [] => false
  | [], _ :: _ => true
  | _ :: _, [] => false
  | first :: firsts, second :: seconds =>
      first.before second || (first == second && beforeComponents firsts seconds)

def before (first second : String) : Bool :=
  beforeComponents (components first) (components second)

/-- Puts a path in its place; another spelling of the same path is replaced. -/
def insert (path : String) : List String → List String
  | [] => [path]
  | other :: paths =>
      if before path other then path :: other :: paths
      else if same path other then path :: paths
      else other :: insert path paths

/-- The paths in ascending order, each once and in the spelling that came last. -/
def sorted (paths : List String) : List String :=
  paths.foldl (fun paths path => insert path paths) []

/-- The paths in ascending order, with all repetitions. -/
def arranged (paths : List String) : List String :=
  paths.mergeSort fun first second => !before second first

def dropIdleEnd (pieces : List (List Char)) : List (List Char) :=
  (pieces.reverse.dropWhile isIdle).reverse

/-- The directory part of a path, spelled as in the path.  The empty path and the root have none. -/
def directory? (path : String) : Option String :=
  let (head, pieces) := splitHead path.toList
  match (dropIdleEnd pieces).reverse with
  | _ :: earlier => some (String.ofList (head ++ joinPieces (dropIdleEnd earlier.reverse)))
  | [] => if head = ['.'] then some "" else none

/-- The text after the last dot of a file name, if there is something before that dot. -/
def extension? (name : List Char) : Option (List Char) :=
  let reversed := name.reverse
  match reversed.dropWhile (· != '.') with
  | _ :: stem => if stem = [] then none else some (reversed.takeWhile (· != '.')).reverse
  | [] => none

end TemplateBinding.PathName
