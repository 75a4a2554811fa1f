import WikiDirectives.Files.PageFile
import WikiDirectives.Handler

/-! Log records of a run. -/
namespace WikiDirectives.CommandLine

inductive Level where
  | error
  | warn
  | info
  | debug
  | trace
  deriving DecidableEq, Repr

namespace Level

def text : Level → Text
  | error => "ERROR".toList
  | warn => "WARN".toList
  | info => "INFO".toList
  | debug => "DEBUG".toList
  | trace => "TRACE".toList

/-- How much is logged when a level is shown, itself included. -/
def rank : Level → Nat
  | error => 1
  | warn => 2
  | info => 3
  | debug => 4
  | trace => 5

end Level

/-- A record: its level, the part of the program it comes from, a message, and fields. -/
structure Record where
  level : Level
  source : Text
  message : Text
  fields : List (Text × Text) := []
  deriving DecidableEq, Repr

namespace Record

def text (record : Record) : Text :=
  record.level.text ++ ' ' :: record.source ++ ": ".toList ++ record.message ++
    record.fields.flatMap fun (name, value) => ' ' :: name ++ '=' :: value

def expanderSource : Text := "wm_macros::processor".toList
def listingSource : Text := "wm::document".toList
def commandSource : Text := "wm::commands::process".toList

def lineField (line : Nat) : Text × Text := ("line".toList, Text.decimal line)
def nameField (name : Text) : Text × Text := ("name".toList, name)

def ofWarning : ListingWarning → Record
  | .unreadableDirectory path error =>
    ⟨.warn, listingSource, "Failed to read directory".toList,
      [("path".toList, path), ("error".toList, error.message)]⟩
  | .unreadablePage path error =>
    ⟨.warn, listingSource, "Failed to read page".toList,
      [("path".toList, path), ("error".toList, error.message)]⟩

/-- The records of an event; those of a listing tell what came up in the page's directories. -/
def ofEvent (workspace : Workspace) (page : Path) : Event → List Record
  | .ignored line name =>
    [⟨.trace, expanderSource, "Ignoring macro".toList, [lineField line, nameField name]⟩]
  | .unhandled line name =>
    [⟨.debug, expanderSource, "Allowed macro has no handler".toList,
      [lineField line, nameField name]⟩]
  | .dispatched line name arguments =>
    [⟨.debug, expanderSource, "Dispatching macro".toList,
      [lineField line, nameField name, ("args".toList, Text.decimal arguments)]⟩]
  | .asked depth => (workspace.warningsBelow page depth).map ofWarning

end Record

end WikiDirectives.CommandLine
