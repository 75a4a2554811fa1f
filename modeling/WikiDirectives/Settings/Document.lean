import WikiDirectives.Settings.Source
import WikiDirectives.Settings.Variables
import WikiDirectives.Toml.Document

/-! The settings that a TOML document holds. -/
namespace WikiDirectives

namespace SettingsSource
open Toml

/-- The one field of a section. A section is a table with the field under its key, or an array with
the field in front; a moment in time counts as an empty section. Of a table every entry is read, of
an array nothing behind the field. -/
def sectionField? (key : Text) : Option Value → Option (Option Value)
  | none | some .moment => some none
  | some (.table _ entries) =>
    if Value.entriesReadable entries then some (Entries.get? entries key) else none
  | some (.array items) => some items.head?
  | some (.tables rows) => some (rows.head?.map (.table .header))
  | some _ => none

def textOf? : Value → Option Text
  | .text content => some content
  | _ => none

def textsOf? : Value → Option (List Text)
  | .array items => items.mapM textOf?
  | _ => none

def depthOf? : Value → Option Nat
  | .integer (some (.ofNat depth)) => if depth ≤ wordBound then some depth else none
  | _ => none

/-- Reads a field that may be missing. -/
def field? {α : Type} (entries : Entries) (part key : String) (read : Value → Option α) :
    Option (Option α) := do
  match ← sectionField? key.toList (entries.get? part.toList) with
  | none => some none
  | some value => (read value).map some

def sectionNames : List Text := ["macros".toList, "article_list".toList, "docs".toList]

/-- The settings in a document. What stands under unknown keys does not matter, but is read. -/
def ofEntries? (entries : Entries) : Option SettingsSource := do
  let allowed ← field? entries "macros" "allowed" textsOf?
  let defaultDepth ← field? entries "article_list" "default_depth" depthOf?
  let sourceDir ← field? entries "docs" "source_dir" textOf?
  let others := entries.filter fun entry => !sectionNames.contains entry.1
  if Value.entriesReadable others then some { allowed, defaultDepth, sourceDir } else none

def parse? (content : Text) : Option SettingsSource := do
  ofEntries? (← Toml.parse? content)

end SettingsSource

/-- The reader of the program: TOML, with variables and a tilde for the home directory in paths. -/
def SettingsReader.toml : SettingsReader where
  source? := SettingsSource.parse?
  expand := Variables.expandPath

end WikiDirectives
