import WikiDirectives.Text.Basic

/-! Reading decimal numerals that must fit a range. -/
namespace WikiDirectives

/-- Why a text is no numeral of the wanted range. -/
inductive NumeralError where
  | empty
  | invalidDigit
  | tooLarge
  | tooSmall
  deriving DecidableEq, Repr

namespace NumeralError

def message : NumeralError → Text
  | empty => "cannot parse integer from empty string".toList
  | invalidDigit => "invalid digit found in string".toList
  | tooLarge => "number too large to fit in target type".toList
  | tooSmall => "number too small to fit in target type".toList

end NumeralError

namespace Numeral

/-- The value of one of the ten digits, no other script counting. -/
def digit? (c : Char) : Option Nat := if c.isDigit then some (c.toNat - 48) else none

/-- Reads digits from the left onto `value`; the first bad digit, or the first digit that passes
the bound, decides the error. -/
def digits (bound : Nat) (overflow : NumeralError) : Nat → Text → Except NumeralError Nat
  | value, [] => .ok value
  | value, c :: s => match digit? c with
    | none => .error .invalidDigit
    | some d =>
      if 10 * value + d ≤ bound then digits bound overflow (10 * value + d) s else .error overflow

/-- A number up to `bound`, with an optional plus sign. -/
def natural (bound : Nat) : Text → Except NumeralError Nat
  | [] => .error .empty
  | ['+'] => .error .invalidDigit
  | '+' :: s => digits bound .tooLarge 0 s
  | s => digits bound .tooLarge 0 s

/-- A number from `-least` to `greatest`, with an optional sign. -/
def integer (least greatest : Nat) : Text → Except NumeralError Int
  | ['-'] => .error .invalidDigit
  | '-' :: s => (digits least .tooSmall 0 s).map fun n => -(n : Int)
  | s => (natural greatest s).map fun n => (n : Int)

end Numeral

/-- The largest number of a 64-bit word, the bound of depths and stash places. -/
def wordBound : Nat := 18446744073709551615

namespace Text

def ofInt : Int → Text
  | .ofNat n => decimal n
  | .negSucc n => '-' :: decimal (n + 1)

end Text

end WikiDirectives
