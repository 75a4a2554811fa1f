import WikiDirectives.Toml.Quoted
import WikiDirectives.Toml.Value

/-! The values of TOML that are written without quotes or brackets: truth values, numbers and
moments in time. -/
namespace WikiDirectives.Toml

/-! ## Low lines -/

def isHexDigit (c : Char) : Bool := (hexDigit? c).isSome

/-- Whether low lines stand between digits. -/
def groupsDigits (isDigit : Char → Bool) (s : Text) : Bool :=
  let groups := Text.pieces '_' s
  groups.tail.all (·.head?.any isDigit) &&
    groups.dropLast.all (·.getLast?.any isDigit)

def withoutLowLines (s : Text) : Text := s.filter (· ≠ '_')

/-! ## Integers -/

/-- Takes off a sign, and tells whether it is a minus. -/
def signed : Text → Bool × Text
  | '+' :: s => (false, s)
  | '-' :: s => (true, s)
  | s => (false, s)

/-- A digit in a base up to sixteen. -/
def digitIn? (base : Nat) (c : Char) : Option Nat := (hexDigit? c).filter (· < base)

/-- The number that digits stand for; without digits there is none. -/
def numberIn? (base : Nat) : Text → Option Nat
  | [] => none
  | digits => digits.foldlM (fun number c => (digitIn? base c).map (base * number + ·)) 0

/-- Integers have at most 128 bits. -/
def within128Bits (number : Int) : Bool := -Nat.pow 2 127 ≤ number && number < Nat.pow 2 128

/-- The number that a sign and digits stand for, if it is within its bounds. -/
def decimalInteger? (s : Text) : Option Int :=
  let (negative, digits) := signed s
  let number? := (numberIn? 10 digits).map fun number : Nat =>
    if negative then -(number : Int) else number
  number?.filter within128Bits

/-- An integer in a base of its own. The mark of the base is already read. -/
def basedInteger? (base : Nat) (s : Text) : Option Value :=
  if s.all (fun c => (digitIn? base c).isSome || c = '_') && groupsDigits isHexDigit s then
    some (.integer (((numberIn? base (withoutLowLines s)).map Int.ofNat).filter within128Bits))
  else none

/-! ## Numbers with a fraction or an exponent -/

def isDigitOrLowLine (c : Char) : Bool := c.isDigit || c = '_'

/-- What follows digits, of which there is at least one. Low lines count as part of them. -/
def afterDigits? (s : Text) : Option Text :=
  if (s.takeWhile isDigitOrLowLine).any Char.isDigit then some (s.dropWhile isDigitOrLowLine)
  else none

/-- What follows a point with the digits of a fraction, if there is a point. -/
def afterFraction? : Text → Option Text
  | '.' :: s => afterDigits? s
  | s => some s

def isExponentMark (c : Char) : Bool := c = 'e' || c = 'E'

/-- What follows an exponent, if there is one. -/
def afterExponent? : Text → Option Text
  | [] => some []
  | c :: s => if isExponentMark c then afterDigits? (signed s).2 else some (c :: s)

/-- Whether a text without sign is made of a whole part without leading zero, a fraction and an
exponent. -/
def isFloatForm (s : Text) : Bool :=
  let whole := s.takeWhile isDigitOrLowLine
  !(s.head? = some '0' && 1 < whole.countP Char.isDigit) &&
    ((afterDigits? s).bind fun s => (afterFraction? s).bind afterExponent?) = some []

def decimalNumber (digits : Text) : Nat :=
  digits.foldl (fun number c => 10 * number + (c.toNat - 48)) 0

/-- Whether a whole number times a power of ten stays below what a double can hold: half a unit
above the greatest double it is rounded to infinity. -/
def isFinite (digits : Text) (exponent : Int) : Bool :=
  let digits := digits.dropWhile (· = '0')
  let number := decimalNumber digits
  let limit := Nat.pow 2 1024 - Nat.pow 2 970
  if digits.isEmpty then true
  else match exponent with
    | .ofNat e => digits.length + e ≤ 309 && number * Nat.pow 10 e < limit
    | .negSucc e => digits.length ≤ e || number < limit * Nat.pow 10 (e + 1)

/-- A text cut at the first character of a kind. -/
def cutAt (p : Char → Bool) (s : Text) : Text × Text :=
  (s.takeWhile (!p ·), (s.dropWhile (!p ·)).drop 1)

/-- Whether a number with a fraction or an exponent, without sign and low lines, fits a double. -/
def fitsDouble (s : Text) : Bool :=
  let (mantissa, exponent) := cutAt isExponentMark s
  let (whole, fraction) := cutAt (· = '.') mantissa
  let (negative, digits) := signed exponent
  let power : Int := if negative then -(decimalNumber digits : Int) else decimalNumber digits
  isFinite (whole ++ fraction) (power - fraction.length)

/-! ## Moments in time -/

/-- A number of exactly so many digits, and what follows it. -/
def fixedDigits? (width : Nat) (s : Text) : Option (Nat × Text) :=
  let digits := s.takeWhile Char.isDigit
  if digits.length = width then some (decimalNumber digits, s.dropWhile Char.isDigit) else none

def daysIn (year month : Nat) : Nat :=
  if month = 2 then
    if year % 4 = 0 && (year % 100 ≠ 0 || year % 400 = 0) then 29 else 28
  else if month = 4 || month = 6 || month = 9 || month = 11 then 30 else 31

/-- What follows a date of the calendar. -/
def date? (s : Text) : Option Text := do
  let (year, s) ← fixedDigits? 4 s
  let s ← Text.after? ['-'] s
  let (month, s) ← fixedDigits? 2 s
  let s ← Text.after? ['-'] s
  let (day, s) ← fixedDigits? 2 s
  if 1 ≤ month && month ≤ 12 && 1 ≤ day && day ≤ daysIn year month then some s else none

/-- What follows the seconds of a time, which may be left out and may have a fraction. -/
def seconds? : Text → Option Text
  | ':' :: s => match fixedDigits? 2 s with
    | none => none
    | some (second, s) =>
      if 60 < second then none else
      match s with
      | '.' :: s => if (s.takeWhile Char.isDigit).isEmpty then none else s.dropWhile Char.isDigit
      | s => some s
  | s => some s

/-- What follows a time of the day. -/
def time? (s : Text) : Option Text := do
  let (hour, s) ← fixedDigits? 2 s
  let s ← Text.after? [':'] s
  let (minute, s) ← fixedDigits? 2 s
  if hour ≤ 23 && minute ≤ 59 then seconds? s else none

/-- Whether a text is the offset of a time zone, or nothing. -/
def isOffset : Text → Bool
  | [] | ['Z'] | ['z'] => true
  | sign :: s =>
    if sign = '+' || sign = '-' then
      match fixedDigits? 2 s with
      | some (hour, ':' :: s) => match fixedDigits? 2 s with
        | some (minute, []) => hour ≤ 23 && minute ≤ 59
        | _ => false
      | _ => false
    else false

/-- Whether a text is a date, a time, or a date with a time and perhaps an offset. -/
def isMoment (s : Text) : Bool :=
  match date? s with
  | some [] => true
  | some (c :: rest) => (c = 'T' || c = 't' || c = ' ') && (time? rest).any isOffset
  | none => time? s = some []

/-! ## Values -/

/-- A number or moment in time. What follows its first digits tells which. -/
def plainScalar? (s : Text) : Option Value :=
  let unsigned := (signed s).2
  let leadingZero := unsigned.head? = some '0' && unsigned ≠ ['0']
  let integer? :=
    if !leadingZero && groupsDigits isHexDigit s then
      some (.integer (decimalInteger? (withoutLowLines s)))
    else none
  match unsigned.dropWhile Char.isDigit with
  | [] => if unsigned.isEmpty then none else integer?
  | c :: rest =>
    if c = '-' || c = ':' then if isMoment s then some .moment else none
    else if (c :: rest).any fun c => c = '.' || isExponentMark c then
      if isFloatForm unsigned && groupsDigits Char.isDigit s then
        some (.float (fitsDouble (withoutLowLines unsigned)))
      else none
    else if c = '_' then integer?
    else none

/-- The value of a text without quotes and brackets. -/
def scalarOf? (s : Text) : Option Value :=
  if s = "true".toList then some (.boolean true)
  else if s = "false".toList then some (.boolean false)
  else if (signed s).2 ∈ ["inf".toList, "nan".toList] then some (.float true)
  else match s with
    | '0' :: 'x' :: digits => basedInteger? 16 digits
    | '0' :: 'o' :: digits => basedInteger? 8 digits
    | '0' :: 'b' :: digits => basedInteger? 2 digits
    | s => plainScalar? s

def endsScalar (c : Char) : Bool :=
  c ∈ ['=', ',', '[', ']', '\x7b', '\x7d', ' ', '\t', '#', '\r', '\n']

/-- The text of a scalar, and what follows it. One space may stand between a date and a time. -/
def scalarText (s : Text) : Text × Text :=
  let front := s.takeWhile (!endsScalar ·)
  let back := s.dropWhile (!endsScalar ·)
  match back with
  | ' ' :: c :: rest =>
    if date? front = some [] && c.isDigit then
      (front ++ ' ' :: (c :: rest).takeWhile (!endsScalar ·), (c :: rest).dropWhile (!endsScalar ·))
    else (front, back)
  | _ => (front, back)

def scalar? (s : Text) : Option (Value × Text) :=
  (scalarOf? (scalarText s).1).map fun value => (value, (scalarText s).2)

end WikiDirectives.Toml
