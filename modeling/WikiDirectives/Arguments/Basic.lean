import WikiDirectives.Dict
import WikiDirectives.Fault

/-! The arguments of a directive and how a handler takes them. -/
namespace WikiDirectives

/-- A bare name is a flag; a name with a colon has a text. -/
inductive ArgValue where
  | flag
  | text (content : Text)
  deriving DecidableEq, Repr

def ArgValue.text? : ArgValue → Option Text
  | flag => none
  | text content => some content

/-- The values of a directive by argument name. -/
abbrev Arguments := Dict ArgValue

namespace Arguments

def text? (args : Arguments) (name : Text) : Option Text := (args.get? name).bind ArgValue.text?

/-- Reads an argument's text, without the blanks at its ends. A missing argument is no fault, a
flag is one, and a refused text is shown with its blanks. -/
def read {α : Type} (args : Arguments) (reader : Text → Except ReadError α) (name : Text) :
    Except Fault (Option α) :=
  match args.get? name with
  | none => .ok none
  | some .flag => .error (.missingValue name)
  | some (.text content) => match reader content.trim with
    | .ok value => .ok (some value)
    | .error error => .error (.invalidArgument name content (.unreadable error))

/-- Refuses the first argument, in name order, that is not accepted. -/
def expectOnly (args : Arguments) (accepted : List Text) : Except Fault Unit :=
  match args.names.find? fun name => !accepted.contains name with
  | none => .ok ()
  | some name => .error (.unexpectedArgument name)

end Arguments

/-! Readers for `Arguments.read`. -/
namespace Reader

def natural (bound : Nat) (s : Text) : Except ReadError Nat :=
  (Numeral.natural bound s).mapError .numeral

def integer (least greatest : Nat) (s : Text) : Except ReadError Int :=
  (Numeral.integer least greatest s).mapError .numeral

def boolean (s : Text) : Except ReadError Bool :=
  if s = "true".toList then .ok true
  else if s = "false".toList then .ok false
  else .error .notBoolean

def character : Text → Except ReadError Char
  | [] => .error .noCharacter
  | [c] => .ok c
  | _ => .error .manyCharacters

def text (s : Text) : Except ReadError Text := .ok s

end Reader

end WikiDirectives
