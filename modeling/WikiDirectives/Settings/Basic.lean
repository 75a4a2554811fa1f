import WikiDirectives.Files.Workspace
import WikiDirectives.Registry

/-! The settings of a wiki. -/
namespace WikiDirectives

/-- Why settings are refused. -/
inductive Invalidity where
  | emptyName
  | invalidName (name : Text)
  | depthZero
  | depthAbove (limit : Nat)
  deriving DecidableEq, Repr

def Invalidity.message : Invalidity → Text
  | emptyName => "macros.allowed cannot contain empty names".toList
  | invalidName name =>
    "macros.allowed: '".toList ++ name ++ "' is not a valid macro name".toList
  | depthZero => "article_list.default_depth must be greater than 0".toList
  | depthAbove limit => "article_list.default_depth cannot exceed ".toList ++ Text.decimal limit

/-- Why there are no settings. -/
inductive SettingsError where
  | notFound (path : Path)
  | file (error : FileError)
  | malformed
  | invalid (reason : Invalidity)
  | unsetVariable (field name : Text)
  deriving DecidableEq, Repr

def SettingsError.message : SettingsError → Text
  | notFound path => "Configuration file not found: ".toList ++ path
  | file error => "I/O error: ".toList ++ error.message
  | malformed => "TOML parse error".toList
  | invalid reason => "Configuration error: ".toList ++ reason.message
  | unsetVariable field name =>
    "Environment variable error in ".toList ++ field ++ ": error looking key '".toList ++ name ++
      "' up: environment variable not found".toList

/-- Settings: the names of the directives that pages may use, the usual depth of article lists, the
directory of the pages, and the file that the settings come from. -/
structure Settings where
  allowed : List Text := Registry.usualNames
  defaultDepth : Nat := Builtin.usualDepth
  sourceDir : Path := ['.']
  origin : Option Path := none
  deriving DecidableEq, Repr

namespace Settings

/-- The first name that no handler can have. -/
def checkNames : List Text → Except Invalidity Unit
  | [] => .ok ()
  | name :: rest =>
    if name.isEmpty then .error .emptyName
    else if isName name then checkNames rest
    else .error (.invalidName name)

def checkDepth (depth : Nat) : Except Invalidity Unit :=
  if depth = 0 then .error .depthZero
  else if depth ≤ Builtin.maxDepth then .ok ()
  else .error (.depthAbove Builtin.maxDepth)

/-- Refuses settings with a bad name, or else with a bad depth. -/
def check (settings : Settings) : Except Invalidity Unit := do
  checkNames settings.allowed
  checkDepth settings.defaultDepth

def checked (settings : Settings) : Except SettingsError Settings :=
  match settings.check with
  | .ok () => .ok settings
  | .error reason => .error (.invalid reason)

/-- The built-in handlers with the allowed names and the depth of the settings. -/
def registry (settings : Settings) : Except Fault Registry :=
  Registry.registerAll { allowed := settings.allowed }
    [Builtin.toc, Builtin.articleList settings.defaultDepth, Builtin.wikilink]

end Settings

end WikiDirectives
