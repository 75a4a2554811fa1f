import WikiDirectives.Expansion

/-! Expanded pages and the texts they are written as. -/
namespace WikiDirectives

inductive LineEnding where
  | lf
  | crlf
  deriving DecidableEq, Repr

def LineEnding.text : LineEnding → Text
  | lf => ['\n']
  | crlf => ['\r', '\n']

/-- The ending a text's lines are written with again: that of all lines if any line has it. -/
def LineEnding.of (text : Text) : LineEnding :=
  if Text.occursIn ['\r', '\n'] text then crlf else lf

/-- An expanded page. The marks tell by position which lines a handler made; a line without a mark
counts as one of the source. -/
structure Page where
  lines : List Text
  stash : Stash
  generated : List Bool
  ending : LineEnding
  trailing : Bool
  deriving DecidableEq, Repr

namespace Page

/-- The lines with the ending between them, and after the last one if the source had it there. -/
def assemble (page : Page) (lines : List Text) : Text :=
  Text.joined page.ending.text lines ++
    if page.trailing && !lines.isEmpty then page.ending.text else []

/-- The page with its tokens left in place. -/
def toText (page : Page) : Text := page.assemble page.lines

/-- A line as it is rendered: contents are put back into lines that a handler made. -/
def renderLine (page : Page) (text : Text) (place : Nat) : Text :=
  if page.generated[place]?.getD false then page.stash.resolveAll text else text

def render (page : Page) : Text :=
  page.assemble (page.lines.zipIdx.map fun (text, place) => page.renderLine text place)

end Page

/-- Expands a text with a fresh stash. -/
def Registry.expandText (registry : Registry) (document : Document) (text : Text) :
    Except LineFault Page × Session :=
  let (result, session) := registry.expand document text.lines {}
  (result.map fun lines =>
    { lines := lines.map (·.text)
      stash := session.stash
      generated := lines.map (·.generated)
      ending := .of text
      trailing := text.getLast? = some '\n' }, session)

end WikiDirectives
