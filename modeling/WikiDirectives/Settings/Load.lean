import WikiDirectives.Settings.Source

/-! Finding and loading settings. -/
namespace WikiDirectives

/-- Settings given by hand, which win over those of a file. -/
structure Overrides where
  allowed : Option (List Text) := none
  sourceDir : Option Path := none
  deriving DecidableEq, Repr

namespace Settings

def fileName : Text := "wm.toml".toList

def sourceDirField : Text := "docs.source_dir".toList

variable (reader : SettingsReader) (workspace : Workspace)

/-- The directory of the pages: the one written, taken from the directory of the settings file, or
that directory itself. -/
def resolveSourceDir (directory : Path) : Option Text → Except SettingsError Path
  | none => .ok directory
  | some written => match reader.expand workspace written with
    | .ok path => .ok (directory.join path)
    | .error name => .error (.unsetVariable sourceDirField name)

/-- The settings of a file. -/
def ofFile (path : Path) : Except SettingsError Settings := do
  let content ← (workspace.read path).mapError .file
  match reader.source? content with
  | none => .error .malformed
  | some source =>
    let directory := path.parent?.getD ['.']
    let sourceDir ← resolveSourceDir reader workspace directory source.sourceDir
    checked { source.settings with sourceDir, origin := some path }

/-- Where a settings file is looked for: in the current directory, then upwards. -/
def candidates (current : Location) : List Path :=
  (List.range (current.length + 1)).reverse.map fun count =>
    Path.join (Location.path (current.take count)) fileName

def discover : Option Path :=
  (candidates workspace.current).find? workspace.has

/-- The settings where there is no file: the pages lie in the current directory. -/
def usual : Settings := { sourceDir := workspace.current.path }

def override (settings : Settings) (overrides : Overrides) : Settings :=
  { settings with
    allowed := overrides.allowed.getD settings.allowed
    sourceDir := overrides.sourceDir.getD settings.sourceDir }

/-- The settings of the given file, which must exist, or of the nearest one, or the usual ones. -/
def base : Option Path → Except SettingsError Settings
  | some path =>
    if workspace.has path then ofFile reader workspace path else .error (.notFound path)
  | none => match discover workspace with
    | some path => ofFile reader workspace path
    | none => .ok (usual workspace)

/-- Loads settings. With overrides, even empty ones, the result is checked again. -/
def load (given : Option Path) (overrides : Option Overrides) : Except SettingsError Settings := do
  let settings ← base reader workspace given
  match overrides with
  | none => .ok settings
  | some overrides => checked (settings.override overrides)

end Settings

end WikiDirectives
