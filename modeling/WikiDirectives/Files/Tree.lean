import WikiDirectives.Text.Basic

/-! Trees of files and directories. -/
namespace WikiDirectives

/-- A file with its bytes, or a directory with its entries in the order they are listed. Names are texts,
there are no links, and there are no access rights: every file can be read, and every directory can be
listed, passed through and written to. -/
inductive FileTree where
  | file (content : ByteArray)
  | directory (entries : List (Text × FileTree))

/-- Where something stands in a tree: the names on the way from the root. -/
abbrev Location := List Text

/-- The absolute path of a location. -/
def Location.path (location : Location) : Text := '/' :: Text.joined ['/'] location

namespace FileTree

instance : Inhabited FileTree := ⟨.directory []⟩

def isFile : FileTree → Bool
  | file _ => true
  | directory _ => false

def entries : FileTree → List (Text × FileTree)
  | file _ => []
  | directory entries => entries

def child? (tree : FileTree) (name : Text) : Option FileTree :=
  (tree.entries.find? fun entry => entry.1 = name).map (·.2)

def at? (tree : FileTree) : Location → Option FileTree
  | [] => some tree
  | name :: rest => match tree.child? name with
    | some child => child.at? rest
    | none => none

/-- The entries with a tree under a name, at the old place of the name or at the end. -/
def setEntry (name : Text) (tree : FileTree) : List (Text × FileTree) → List (Text × FileTree)
  | [] => [(name, tree)]
  | (other, old) :: rest =>
    if other = name then (name, tree) :: rest else (other, old) :: setEntry name tree rest

/-- Changes what stands at a location. Directories on the way are made where they are missing. -/
def update (change : Option FileTree → FileTree) : Location → Option FileTree → FileTree
  | [], tree? => change tree?
  | name :: rest, tree? =>
    let tree := tree?.getD (.directory [])
    .directory (setEntry name (update change rest (tree.child? name)) tree.entries)

/-- Writes a file, in place of what stood at the location. -/
def writeFile (tree : FileTree) (location : Location) (content : ByteArray) : FileTree :=
  update (fun _ => .file content) location (some tree)

/-- Makes a directory, and keeps the one that is there. -/
def makeDirectory (tree : FileTree) (location : Location) : FileTree :=
  update (fun
    | some (.directory entries) => .directory entries
    | _ => .directory []) location (some tree)

end FileTree

end WikiDirectives
