import WikiDirectives.Text.Basic

/-! Paths as they are written, and the components that they are made of. -/
namespace WikiDirectives

/-- A path as it is written. -/
abbrev Path := Text

/-- A component of a path. A dot is one only at the start of a path. -/
inductive Component where
  | root
  | here
  | up
  | name (text : Text)
  deriving DecidableEq, Repr

def Component.text : Component → Text
  | root => ['/']
  | here => ['.']
  | up => ['.', '.']
  | name text => text

namespace Path

def isAbsolute (path : Path) : Bool := path.head? = some '/'

/-- The root slash or the dot that a path begins with, and the rest of the path. -/
def opening : Path → Text × Text
  | '/' :: body => (['/'], body)
  | ['.'] => (['.'], [])
  | '.' :: '/' :: body => (['.'], '/' :: body)
  | body => ([], body)

/-- A piece between slashes that is no component: nothing, or a dot. -/
def isVoid (piece : Text) : Bool := piece.isEmpty || piece = ['.']

def dropVoids (pieces : List Text) : List Text := (pieces.reverse.dropWhile isVoid).reverse

/-- The pieces between the slashes of a path's body, up to the last component. -/
def pieces (path : Path) : List Text := dropVoids (Text.pieces '/' path.opening.2)

def componentOf (piece : Text) : Component := if piece = ['.', '.'] then .up else .name piece

/-- The components of a path. Doubled slashes, and dots after the start, are none. -/
def components (path : Path) : List Component :=
  (match path.opening.1 with
    | '/' :: _ => [.root]
    | '.' :: _ => [.here]
    | _ => []) ++
  (path.pieces.filter (!isVoid ·)).map componentOf

/-- The last component, if it is a name. -/
def fileName? (path : Path) : Option Text :=
  match path.pieces.getLast? with
  | some piece => if piece = ['.', '.'] then none else some piece
  | none => none

/-- A file name cut at its last dot. A dot that comes first cuts nothing. -/
def splitExtension (name : Text) : Text × Option Text :=
  match Text.splitLast? '.' name with
  | none | some ([], _) => (name, none)
  | some (stem, extension) => (stem, some extension)

def stem? (path : Path) : Option Text := path.fileName?.map fun name => (splitExtension name).1

def extension? (path : Path) : Option Text :=
  path.fileName?.bind fun name => (splitExtension name).2

/-- The path up to the stem of its file name; a path without file name stays. -/
def upToStem (path : Path) : Path :=
  match path.stem? with
  | none => path
  | some stem => path.opening.1 ++ Text.joined ['/'] (path.pieces.dropLast ++ [stem])

/-- The path without the extension of its file name, the dot and all that follows. The letters of
the extension go first, so that of a name with two dots in front of them the two dots stay, and lead
to the directory above. -/
def dropExtension (path : Path) : Path :=
  match path.extension? with
  | none => path.upToStem
  | some extension => upToStem (path.take (path.length - extension.length))

/-- The path without its last component. The root and the empty path have no parent. -/
def parent? (path : Path) : Option Path :=
  if path.pieces.isEmpty then
    if path.opening.1 = ['.'] then some [] else none
  else some (path.opening.1 ++ Text.joined ['/'] (dropVoids path.pieces.dropLast))

/-- A path taken from a directory; an absolute path is taken alone. -/
def join (directory path : Path) : Path :=
  if path.isAbsolute || directory.isEmpty then path
  else if directory.getLast? = some '/' then directory ++ path
  else directory ++ '/' :: path

/-- The path below a directory, or the path itself if it does not lie there by its components. -/
def relativeTo (root path : Path) : Path :=
  if root.components.isPrefixOf path.components && !root.components.isEmpty then
    Text.joined ['/'] ((path.components.drop root.components.length).map Component.text)
  else path

end Path

end WikiDirectives
