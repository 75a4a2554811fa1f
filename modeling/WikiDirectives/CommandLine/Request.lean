import WikiDirectives.CommandLine.Options
import WikiDirectives.Settings.Load

/-! What a command line asks for. -/
namespace WikiDirectives.CommandLine

/-- How a page file is to be expanded. -/
structure ExpandOptions where
  file : Path
  config : Option Path := none
  output : Option Path := none
  allowed : List Text := []
  sourceDir : Option Path := none
  keepPlaceholders : Bool := false
  verbose : Bool := false
  deriving DecidableEq, Repr

/-- The settings given on the command line. -/
def ExpandOptions.overrides (options : ExpandOptions) : Overrides where
  allowed := if options.allowed.isEmpty then none else some options.allowed
  sourceDir := options.sourceDir

inductive Request where
  | expand (options : ExpandOptions)
  | describe (config : Option Path) (json : Bool)
  | version
  | help
  | misuse
  deriving DecidableEq, Repr

namespace Request

def expandSpecs : List OptionSpec :=
  [{ long := "config".toList, short := some 'c' },
    { long := "output".toList, short := some 'o' },
    { long := "allow".toList, repeatable := true, allowsEmpty := true },
    { long := "source-dir".toList },
    { long := "keep-placeholders".toList, takesValue := false },
    { long := "verbose".toList, short := some 'v', takesValue := false }]

def describeSpecs : List OptionSpec :=
  [{ long := "config".toList, short := some 'c' },
    { long := "json".toList, takesValue := false }]

def sourceDirVariable : Text := "WM_SOURCE_DIR".toList

/-- Reads the arguments of a command and makes the request of its items. -/
def read (specs : List OptionSpec) (maxOperands : Nat) (arguments : List Text)
    (make : List Item → Request) : Request :=
  match readItems specs arguments with
  | none => misuse
  | some items =>
    if !acceptable specs maxOperands items then misuse
    else if items.contains .help then help
    else make items

/-- A page to expand. The directory of the pages may also be given by a variable. -/
def ofExpandItems (environment : Dict Text) (items : List Item) : Request :=
  let value? (long : String) := (values items long.toList).head?
  let sourceDir := (value? "source-dir").or (environment.get? sourceDirVariable)
  match operands items with
  | [file] =>
    if sourceDir = some [] then misuse
    else .expand
      { file
        config := value? "config"
        output := value? "output"
        allowed := values items "allow".toList
        sourceDir
        keepPlaceholders := (value? "keep-placeholders").isSome
        verbose := (value? "verbose").isSome }
  | _ => misuse

def ofDescribeItems (items : List Item) : Request :=
  .describe (values items "config".toList).head? (!(values items "json".toList).isEmpty)

def commandNames : List Text := ["process".toList, "macros".toList, "help".toList]

/-- The request of a command line, without the program's name. -/
def ofArguments (environment : Dict Text) : List Text → Request
  | [] => misuse
  | command :: rest =>
    if command = "process".toList then read expandSpecs 1 rest (ofExpandItems environment)
    else if command = "macros".toList then read describeSpecs 0 rest ofDescribeItems
    else if command = "help".toList then
      if rest.all commandNames.contains then help else misuse
    else if command = "--version".toList || "-V".toList.isPrefixOf command then version
    else if command = "--help".toList || "-h".toList.isPrefixOf command then help
    else misuse

end Request

end WikiDirectives.CommandLine
