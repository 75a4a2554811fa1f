import WikiDirectives.Settings.Basic

/-! What a settings file writes, and the readers of settings files. -/
namespace WikiDirectives

/-- Settings as they are written, the directory still without its variables. -/
structure SettingsSource where
  allowed : Option (List Text) := none
  defaultDepth : Option Nat := none
  sourceDir : Option Text := none
  deriving DecidableEq, Repr

/-- The settings before their directory is known. What is not written is as usual. -/
def SettingsSource.settings (source : SettingsSource) : Settings :=
  { allowed := source.allowed.getD Registry.usualNames
    defaultDepth := source.defaultDepth.getD Builtin.usualDepth }

/-- How settings files are read: what a text writes, and the path that a written directory stands for or
the name of a variable in it that has no value. -/
structure SettingsReader where
  source? : Text → Option SettingsSource
  expand : Workspace → Text → Except Text Path

end WikiDirectives
