import WikiDirectives.CommandLine.Filter
import WikiDirectives.CommandLine.Json
import WikiDirectives.CommandLine.Request
import WikiDirectives.Page

/-! Carrying out a request, and what it prints. -/
namespace WikiDirectives.CommandLine

/-- Why a command failed. -/
inductive CommandError where
  | settings (error : SettingsError)
  | registration (fault : Fault)
  | file (error : FileError)
  | page (path : Path) (fault : LineFault)
  deriving DecidableEq, Repr

def CommandError.message : CommandError → Text
  | settings error => error.message
  | registration fault => fault.message
  | file error => error.message
  | page path fault => path ++ ": ".toList ++ fault.message

/-- What a command leaves: its exit code, what it printed, and the files afterwards. -/
structure Report where
  exit : Nat
  stdout : Text := []
  stderr : Text := []
  workspace : Workspace

/-! ## Styles -/

inductive Style where
  | plain
  | dim
  | alarming
  | striking

def Style.codes : Style → Text
  | plain => []
  | dim => "\x1b[2m".toList
  | alarming => "\x1b[31m".toList
  | striking => "\x1b[36m\x1b[1m".toList

def colourVariable : Text := "CLICOLOR_FORCE".toList

/-- Colours are used only where they are asked for. -/
def usesColour (environment : Dict Text) : Bool :=
  match environment.get? colourVariable with
  | none => false
  | some value => value ≠ ['0']

def Style.apply (style : Style) (colour : Bool) (text : Text) : Text :=
  if colour && !style.codes.isEmpty then style.codes ++ text ++ "\x1b[0m".toList else text

/-- Texts as lines of output, each with its line feed. -/
def printed (texts : List Text) : Text := texts.flatMap (· ++ ['\n'])

/-- The line of a failure. -/
def errorLine (workspace : Workspace) (error : CommandError) : Text :=
  Style.alarming.apply (usesColour workspace.environment) ("Error: ".toList ++ error.message)

/-! ## Expanding a page -/

/-- The records of an expansion, and the text that it gives. -/
structure Expanded where
  log : List Record := []
  result : Except CommandError Text

def startRecord (file root : Path) : Record :=
  ⟨.debug, Record.commandSource, "Processing document".toList,
    [("file".toList, file), ("root".toList, root)]⟩

def endRecord (stash : Stash) : Record :=
  ⟨.debug, Record.commandSource, "Document processed".toList,
    [("stashed".toList, Text.decimal stash.entries.length)]⟩

/-- Expands a text as the page of a file. -/
def expandContent (workspace : Workspace) (options : ExpandOptions) (registry : Registry)
    (sourceDir : Path) (content : Text) : Expanded :=
  let root := workspace.absolute sourceDir
  let page := workspace.absolute options.file
  let (result, session) := registry.expandText (workspace.document root page content) content
  let log := startRecord options.file root :: session.events.flatMap (Record.ofEvent workspace page)
  match result with
  | .error fault => { log, result := .error (.page options.file fault) }
  | .ok expanded =>
    { log := log ++ [endRecord expanded.stash]
      result := .ok (if options.keepPlaceholders then expanded.toText else expanded.render) }

/-- Expands a page file under the settings that hold for it. -/
def expandFile (reader : SettingsReader) (workspace : Workspace) (options : ExpandOptions) : Expanded :=
  match Settings.load reader workspace options.config (some options.overrides) with
  | .error error => { result := .error (.settings error) }
  | .ok settings => match settings.registry with
    | .error fault => { result := .error (.registration fault) }
    | .ok registry => match workspace.read options.file with
      | .error error => { result := .error (.file error) }
      | .ok content => expandContent workspace options registry settings.sourceDir content

/-- Prints the text or writes it to a file. -/
def deliver (workspace : Workspace) (output : Option Path) (text : Text) :
    Except CommandError (Text × Workspace) :=
  match output with
  | none => .ok (text, workspace)
  | some path => match workspace.write path text with
    | .ok workspace => .ok ([], workspace)
    | .error error => .error (.file error)

def runExpand (reader : SettingsReader) (workspace : Workspace) (options : ExpandOptions) : Report :=
  let expanded := expandFile reader workspace options
  let setting := LogFilter.setting workspace.environment
  let log :=
    if options.verbose then LogFilter.verbose.lines expanded.log
    else LogFilter.complaints setting ++ (LogFilter.ofText setting).lines expanded.log
  match expanded.result.bind (deliver workspace options.output) with
  | .ok (stdout, workspace) => { exit := 0, stdout, stderr := printed log, workspace }
  | .error error =>
    { exit := 1, stderr := printed (log ++ [errorLine workspace error]), workspace }

/-! ## Describing directives -/

def describeJson (entries : List (Text × Help)) : Json :=
  .array <| entries.map fun (name, help) => .object
    [("name".toList, .text name),
      ("short_description".toList, .text help.short),
      ("help_text".toList, .text help.long),
      ("example_code".toList, .text help.sample),
      ("args".toList, .object (help.args.entries.map fun (arg, about) => (arg, .text about)))]

def describeEntry (colour : Bool) : Text × Help → List Text
  | (name, help) =>
    [Style.striking.apply colour (name ++ " - ".toList ++ help.short),
      "  ".toList ++ help.long,
      Style.dim.apply colour ("  Example: ".toList ++ help.sample)] ++
    help.args.entries.map fun (arg, about) =>
      Style.dim.apply colour ("    ".toList ++ arg ++ ": ".toList ++ about)

def describeLines (colour : Bool) : List (Text × Help) → List Text
  | [] => ["No macros enabled.".toList]
  | entries => entries.flatMap (describeEntry colour)

/-- The directives that the settings enable. -/
def enabled (reader : SettingsReader) (workspace : Workspace) (config : Option Path) :
    Except CommandError (List (Text × Help)) :=
  match Settings.load reader workspace config none with
  | .error error => .error (.settings error)
  | .ok settings => match settings.registry with
    | .error fault => .error (.registration fault)
    | .ok registry => .ok registry.documented

def runDescribe (reader : SettingsReader) (workspace : Workspace) (config : Option Path) (json : Bool) :
    Report :=
  let log := LogFilter.complaints (LogFilter.setting workspace.environment)
  match enabled reader workspace config with
  | .error error =>
    { exit := 1, stderr := printed (log ++ [errorLine workspace error]), workspace }
  | .ok entries =>
    if json then
      { exit := 0, stdout := (describeJson entries).pretty 0 ++ ['\n'], stderr := printed log,
        workspace }
    else
      let lines := describeLines (usesColour workspace.environment) entries
      { exit := 0, stderr := printed (log ++ lines), workspace }

/-! ## Requests -/

def versionText : Text := "wm 0.1.0\n".toList

def usageLines : List Text :=
  ["Usage: wm process [OPTIONS] FILE".toList,
    "       wm macros [OPTIONS]".toList,
    "Options of process: -c, --config FILE; -o, --output FILE; --allow NAME;".toList,
    "  --source-dir DIR; --keep-placeholders; -v, --verbose".toList,
    "Options of macros: -c, --config FILE; --json".toList]

/-- The exit code for a command line that asks for nothing known. -/
def misuseCode : Nat := 2

/-- Carries out a request. -/
def Request.run (reader : SettingsReader) (workspace : Workspace) : Request → Report
  | expand options => runExpand reader workspace options
  | describe config json => runDescribe reader workspace config json
  | version => { exit := 0, stdout := versionText, workspace }
  | help => { exit := 0, stdout := printed usageLines, workspace }
  | misuse => { exit := misuseCode, stderr := printed usageLines, workspace }

/-- Runs a command line. -/
def run (reader : SettingsReader) (workspace : Workspace) (arguments : List Text) : Report :=
  (Request.ofArguments workspace.environment arguments).run reader workspace

end WikiDirectives.CommandLine
