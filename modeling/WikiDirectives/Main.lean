import WikiDirectives.CommandLine.Report
import WikiDirectives.Settings.Document

/-! The program. It copies the part of the disk that a run can look at into a workspace, runs the
command line there, and prints and writes what comes out. -/
namespace WikiDirectives.Program
open CommandLine

/-- Adds what stands at a location of the disk: a file with its bytes, or a directory. -/
def addNode (location : Location) (tree : FileTree) : IO FileTree := do
  try
    let path ← IO.FS.realPath (String.ofList location.path)
    if ← path.isDir then return tree.makeDirectory location
    return tree.writeFile location (← IO.FS.readBinFile path)
  catch _ => return tree

/-- Adds all that a path passes through. -/
def addPath (current : Location) (tree : FileTree) (path : Path) : IO FileTree := do
  let mut here := if path.isAbsolute then [] else current
  let mut tree := tree
  for piece in Text.pieces '/' path do
    unless Path.isVoid piece do
      here := if piece = ['.', '.'] then here.dropLast else here ++ [piece]
      tree ← addNode here tree
  return tree

def namesIn (location : Location) : IO (List Text) := do
  try
    let path ← IO.FS.realPath (String.ofList location.path)
    return (← path.readDir).toList.map (·.fileName.toList)
  catch _ => return []

/-- Adds the pages of a directory and, down to a depth, those in the directories of their names. -/
def addPages (location : Location) : Nat → FileTree → IO FileTree
  | 0, tree => return tree
  | depth + 1, tree => do
    let mut tree := tree
    for name in ← namesIn location do
      if PageFile.isPageName name then
        let directory := match Path.dropExtension name with
          | ['.', '.'] => location.dropLast
          | directory => location ++ [directory]
        tree ← addNode (location ++ [name]) tree
        tree ← addNode directory tree
        tree ← addPages directory depth tree
    return tree

def addVariables (names : List Text) (environment : Dict Text) : IO (Dict Text) :=
  names.foldlM (fun environment name => do
    match ← IO.getEnv (String.ofList name) with
    | some value => return environment.insert name value.toList
    | none => return environment) environment

/-- The variables that matter to every run. -/
def knownVariables : List Text :=
  [Request.sourceDirVariable, LogFilter.levelVariable, colourVariable, Variables.homeVariable]

/-- The home directory of a user, by number, in a record of users: one on each line, with colons between
its fields. -/
def homeIn (users user : Text) : Option Path :=
  users.lines.findSome? fun line => match Text.pieces ':' line with
    | _ :: _ :: number :: _ :: _ :: home :: _ => if number = user then some home else none
    | _ => none

/-- The number of the user in the state of a process. -/
def userIn (status : Text) : Option Text :=
  status.lines.findSome? fun line => match Text.pieces '\t' line with
    | title :: user :: _ => if title = "Uid:".toList then some user else none
    | _ => none

/-- The home directory on record for the user of the program. -/
def homeOnRecord : IO (Option Path) := do
  try
    let status ← IO.FS.readFile "/proc/self/status"
    let users ← IO.FS.readFile "/etc/passwd"
    return (userIn status.toList).bind (homeIn users.toList)
  catch _ => return none

/-- The variables that the directory in a settings file mentions. -/
def mentionedIn (workspace : Workspace) (config : Option Path) : List Text :=
  let content? := (config.or (Settings.discover workspace)).bind fun path =>
    (workspace.read path).toOption
  match (content?.bind SettingsSource.parse?).bind (·.sourceDir) with
  | some written => Variables.mentioned written
  | none => []

def requestPaths : Request → List Path
  | .expand options =>
    options.file :: [options.config, options.output, options.sourceDir].filterMap id
  | .describe config _ => config.toList
  | _ => []

def requestConfig : Request → Option Path
  | .expand options => options.config
  | .describe config _ => config
  | _ => none

/-- The surroundings that a request can look at. -/
def surroundings (request : Request) (environment : Dict Text) : IO Workspace := do
  let directory := (← IO.currentDir).toString.toList
  let current := (Text.pieces '/' directory).filter (!Path.isVoid ·)
  let paths := directory :: Settings.candidates current ++ requestPaths request
  let files ← paths.foldlM (addPath current) (.directory [])
  let workspace : Workspace := { files, current, environment, home := ← homeOnRecord }
  let config := requestConfig request
  let environment ← addVariables (mentionedIn workspace config) environment
  let workspace := { workspace with environment }
  match request with
  | .expand options =>
    let files ← match Settings.load .toml workspace config (some options.overrides) with
      | .ok settings => addPath current workspace.files settings.sourceDir
      | .error _ => pure workspace.files
    let files ← match workspace.locate options.file with
      | .ok location => addPages location.dropLast (Builtin.maxDepth + 2) files
      | .error _ => pure files
    return { workspace with files }
  | _ => return workspace

/-- Writes the file that a run has written. -/
def writeOutput (request : Request) (report : Report) : IO Unit := do
  match request with
  | .expand { output := some path, .. } =>
    if report.exit = 0 then
      if let .ok text := report.workspace.read path then
        IO.FS.writeFile (String.ofList path) (String.ofList text)
  | _ => return ()

end WikiDirectives.Program

open WikiDirectives in
def main (arguments : List String) : IO UInt32 := do
  let environment ← Program.addVariables Program.knownVariables .empty
  let request := CommandLine.Request.ofArguments environment (arguments.map String.toList)
  let report := request.run .toml (← Program.surroundings request environment)
  Program.writeOutput request report
  (← IO.getStderr).putStr (String.ofList report.stderr)
  (← IO.getStdout).putStr (String.ofList report.stdout)
  return report.exit.toUInt32
