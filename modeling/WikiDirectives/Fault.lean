import WikiDirectives.Text.Numeral

/-! What can go wrong when a handler is registered or run. -/
namespace WikiDirectives

/-- Why an argument's text has no value of the wanted type. -/
inductive ReadError where
  | numeral (error : NumeralError)
  | notBoolean
  | noCharacter
  | manyCharacters
  deriving DecidableEq, Repr

def ReadError.message : ReadError → Text
  | numeral error => error.message
  | notBoolean => "provided string was not `true` or `false`".toList
  | noCharacter => "cannot parse char from empty string".toList
  | manyCharacters => "too many characters in string".toList

/-- Why an argument's value is refused. -/
inductive Refusal where
  | unreadable (error : ReadError)
  | depthAbove (limit : Nat)
  deriving DecidableEq, Repr

def Refusal.message : Refusal → Text
  | unreadable error => error.message
  | depthAbove limit => "depth cannot exceed ".toList ++ Text.decimal limit

/-- A failure of a handler, or of its registration. -/
inductive Fault where
  | invalidArgument (arg value : Text) (reason : Refusal)
  | missingValue (arg : Text)
  | unexpectedArgument (arg : Text)
  | duplicateHandler (name : Text)
  | invalidName (name : Text)
  | custom (message : Text)
  deriving DecidableEq, Repr

namespace Fault

def message : Fault → Text
  | invalidArgument arg value reason =>
    "invalid value '".toList ++ value ++ "' for argument '".toList ++ arg ++ "': ".toList ++
      reason.message
  | missingValue arg => "argument '".toList ++ arg ++ "' requires a value".toList
  | unexpectedArgument arg => "unexpected argument '".toList ++ arg ++ "'".toList
  | duplicateHandler name => "macro '".toList ++ name ++ "' is already registered".toList
  | invalidName name => "invalid macro name '".toList ++ name ++ "'".toList
  | custom message => message

end Fault

/-- A handler's fault, with the number of the line and the name of the directive. -/
structure LineFault where
  line : Nat
  name : Text
  cause : Fault
  deriving DecidableEq, Repr

def LineFault.message (fault : LineFault) : Text :=
  "line ".toList ++ Text.decimal fault.line ++ ": macro '".toList ++ fault.name ++
    "' failed: ".toList ++ fault.cause.message

end WikiDirectives
