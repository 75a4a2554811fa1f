import WikiDirectives.Dict
import WikiDirectives.Files.Path
import WikiDirectives.Files.Tree

/-! The surroundings of a run: a file tree, the directory that paths start from, and variables. -/
namespace WikiDirectives

/-- Why a path could not be read, listed or written. -/
inductive FileError where
  | notFound
  | notDirectory
  | isDirectory
  | nameTooLong
  | notUtf8
  deriving DecidableEq, Repr

def FileError.message : FileError → Text
  | notFound => "No such file or directory (os error 2)".toList
  | notDirectory => "Not a directory (os error 20)".toList
  | isDirectory => "Is a directory (os error 21)".toList
  | nameTooLong => "File name too long (os error 36)".toList
  | notUtf8 => "stream did not contain valid UTF-8".toList

/-- How many bytes the name of a file may have. -/
def maxNameBytes : Nat := 255

/-- How many bytes a path may have. -/
def maxPathBytes : Nat := 4095

/-- The surroundings of a run. The home directory is the one on the system's record of users, for an
environment that names none. -/
structure Workspace where
  files : FileTree
  current : Location
  environment : Dict Text
  home : Option Path := none

namespace Workspace

/-- Goes from a directory to what one piece of a path names in it. -/
def step (files : FileTree) (here : Location) (piece : Text) : Except FileError Location :=
  match files.at? here with
  | none => .error .notFound
  | some (.file _) => .error .notDirectory
  | some (.directory entries) =>
    if Path.isVoid piece then .ok here
    else if piece = ['.', '.'] then .ok here.dropLast
    else if maxNameBytes < Text.byteLength piece then .error .nameTooLong
    else if entries.any fun entry => entry.1 = piece then .ok (here ++ [piece])
    else .error .notFound

/-- Follows the pieces of a path one after the other. -/
def follow (files : FileTree) : Location → List Text → Except FileError Location
  | here, [] => .ok here
  | here, piece :: rest => match step files here piece with
    | .ok next => follow files next rest
    | .error error => .error error

/-- Where a path starts. -/
def start (workspace : Workspace) (path : Path) : Location :=
  if path.isAbsolute then [] else workspace.current

/-- What a path leads to, however long it is. The empty path leads nowhere. -/
def trace (workspace : Workspace) (path : Path) : Except FileError Location :=
  if path.isEmpty then .error .notFound
  else follow workspace.files (workspace.start path) (Text.pieces '/' path)

/-- What a path leads to. -/
def locate (workspace : Workspace) (path : Path) : Except FileError Location :=
  if maxPathBytes < Text.byteLength path then .error .nameTooLong else workspace.trace path

def has (workspace : Workspace) (path : Path) : Bool :=
  match workspace.locate path with
  | .ok _ => true
  | .error _ => false

def node (workspace : Workspace) (path : Path) : Except FileError FileTree :=
  match workspace.locate path with
  | .error error => .error error
  | .ok location => match workspace.files.at? location with
    | some tree => .ok tree
    | none => .error .notFound

/-- Whether pieces that follow a name make sense behind a directory only: the next component is the way
up, or they have no component. -/
def wantDirectory (rest : List Text) : Bool :=
  match rest.dropWhile Path.isVoid with
  | [] => !rest.isEmpty
  | piece :: _ => piece = ['.', '.']

/-- How many bytes it takes to ask for a place by its absolute path. A slash is added where only a
directory will do. -/
def askedBytes (place : Location) (rest : List Text) : Nat :=
  Text.byteLength place.path + if wantDirectory rest then 1 else 0

/-- Follows the pieces of a path, and asks for each place that a name leads to by its absolute path,
which may be too long. -/
def resolve (files : FileTree) : Location → List Text → Except FileError Location
  | here, [] => .ok here
  | here, piece :: rest => match step files here piece with
    | .error error => .error error
    | .ok next =>
      if here.length < next.length ∧ maxPathBytes < askedBytes next rest then .error .nameTooLong
      else resolve files next rest

/-- The place that a path leads to, if its absolute path can be found. The length of the path itself does
not matter, but that of the absolute paths of the places on its way. -/
def canonical (workspace : Workspace) (path : Path) : Except FileError Location :=
  if path.isEmpty then .error .notFound
  else resolve workspace.files (workspace.start path) (Text.pieces '/' path)

/-- The absolute path without detours of what a path leads to, or the path where none can be found. -/
def absolute (workspace : Workspace) (path : Path) : Path :=
  match workspace.canonical path with
  | .ok location => location.path
  | .error _ => path

def read (workspace : Workspace) (path : Path) : Except FileError Text :=
  match workspace.node path with
  | .error error => .error error
  | .ok (.directory _) => .error .isDirectory
  | .ok (.file content) => match String.fromUTF8? content with
    | some text => .ok text.toList
    | none => .error .notUtf8

/-- The entries of a directory. -/
def list (workspace : Workspace) (path : Path) : Except FileError (List (Text × FileTree)) :=
  match workspace.node path with
  | .error error => .error error
  | .ok (.file _) => .error .notDirectory
  | .ok (.directory entries) => .ok entries

/-- Writes a file whose directory exists. A path that ends like a directory's is refused. -/
def write (workspace : Workspace) (path : Path) (text : Text) : Except FileError Workspace :=
  if path.isEmpty then .error .notFound else
  if maxPathBytes < Text.byteLength path then .error .nameTooLong else
  let pieces := (Text.pieces '/' path).reverse.dropWhile List.isEmpty
  match pieces with
  | [] => .error .isDirectory
  | last :: front =>
    match follow workspace.files (workspace.start path) (front.reverse ++ [[]]) with
    | .error error => .error error
    | .ok location =>
      let place := location ++ [last]
      if path.getLast? = some '/' || last = ['.'] || last = ['.', '.'] then .error .isDirectory
      else if maxNameBytes < Text.byteLength last then .error .nameTooLong
      else match workspace.files.at? place with
        | some (.directory _) => .error .isDirectory
        | _ => .ok { workspace with
            files := workspace.files.writeFile place (String.ofList text).toUTF8 }

end Workspace

end WikiDirectives
