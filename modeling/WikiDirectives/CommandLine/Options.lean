import WikiDirectives.Text.Basic

/-! Options and operands on a command line.

An option has a long name after two hyphens, and perhaps a letter after one. Letters can be joined.
A value follows its option, in the same argument or as the next one; two hyphens alone end the
options. -/
namespace WikiDirectives.CommandLine

/-- What is known of an option. -/
structure OptionSpec where
  long : Text
  short : Option Char := none
  takesValue : Bool := true
  /-- It may be given more than once. -/
  repeatable : Bool := false
  /-- Its value may be empty. -/
  allowsEmpty : Bool := false

/-- A part of a command line; an option without value has the empty one. -/
inductive Item where
  | option (long value : Text)
  | operand (text : Text)
  | help
  deriving DecidableEq, Repr

/-- What one argument says: nothing known, some items, or items and an option that still waits for
its value. -/
inductive Scan where
  | unknown
  | items (items : List Item)
  | awaiting (items : List Item) (long : Text)
  deriving DecidableEq, Repr

def Scan.after (item : Item) : Scan → Scan
  | unknown => unknown
  | items rest => items (item :: rest)
  | awaiting rest long => awaiting (item :: rest) long

/-- Reads joined letters. -/
def scanLetters (specs : List OptionSpec) : Text → Scan
  | [] => .items []
  | c :: rest =>
    if c = 'h' then .items [.help] else
    match specs.find? fun spec => spec.short = some c with
    | none => .unknown
    | some spec =>
      if spec.takesValue then
        match rest with
        | [] => .awaiting [] spec.long
        | '=' :: value => .items [.option spec.long value]
        | value => .items [.option spec.long value]
      else (scanLetters specs rest).after (.option spec.long [])

/-- Reads a long name, perhaps with a value after an equals sign. -/
def scanLong (specs : List OptionSpec) (text : Text) : Scan :=
  let name := text.takeWhile (· ≠ '=')
  match specs.find? (fun spec => spec.long = name), text.dropWhile (· ≠ '=') with
  | some spec, [] =>
    if spec.takesValue then .awaiting [] spec.long else .items [.option spec.long []]
  | some spec, _ :: value =>
    if spec.takesValue then .items [.option spec.long value] else .unknown
  | none, _ => if text = "help".toList then .items [.help] else .unknown

def scan (specs : List OptionSpec) : Text → Scan
  | '-' :: '-' :: text => scanLong specs text
  | '-' :: c :: text => scanLetters specs (c :: text)
  | text => .items [.operand text]

def looksLikeOption : Text → Bool
  | '-' :: _ :: _ => true
  | _ => false

/-- The items of a command line, up to the first call for help. -/
def readItems (specs : List OptionSpec) : List Text → Option (List Item)
  | [] => some []
  | arg :: rest =>
    if arg = ['-', '-'] then some (rest.map .operand) else
    match scan specs arg with
    | .unknown => none
    | .items items =>
      if items.contains .help then some items else (readItems specs rest).map (items ++ ·)
    | .awaiting items long => match rest with
      | [] => none
      | value :: rest =>
        if looksLikeOption value then none
        else (readItems specs rest).map (items ++ .option long value :: ·)

/-- The values of an option, in order. -/
def values (items : List Item) (long : Text) : List Text :=
  items.filterMap fun
    | .option name value => if name = long then some value else none
    | _ => none

def operands (items : List Item) : List Text :=
  items.filterMap fun
    | .operand text => some text
    | _ => none

/-- Whether each option has as many and such values as it may have, and there are not too many
operands and no empty ones. -/
def acceptable (specs : List OptionSpec) (maxOperands : Nat) (items : List Item) : Bool :=
  specs.all (fun spec =>
    let given := values items spec.long
    (spec.repeatable || given.length ≤ 1) &&
      (spec.allowsEmpty || !spec.takesValue || given.all (!·.isEmpty))) &&
  (operands items).length ≤ maxOperands && (operands items).all (!·.isEmpty)

end WikiDirectives.CommandLine
