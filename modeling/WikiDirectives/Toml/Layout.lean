import WikiDirectives.Text.Basic

/-! Spaces, line breaks and comments of TOML. -/
namespace WikiDirectives.Toml

def isSpace (c : Char) : Bool := c = ' ' || c = '\t'

/-- The characters of a line: no control characters except the tab. -/
def isPrintable (c : Char) : Bool := c = '\t' || (0x20 ≤ c.toNat && c.toNat ≠ 0x7F)

def skipSpaces (s : Text) : Text := s.dropWhile isSpace

/-- What follows a line break. -/
def newline? : Text → Option Text
  | '\n' :: s => some s
  | '\r' :: '\n' :: s => some s
  | _ => none

/-- What follows the end of a line, which may be the end of the text. -/
def lineEnd? : Text → Option Text
  | [] => some []
  | s => newline? s

/-- What follows a line that has nothing more than spaces and a comment. -/
def endOfLine? (s : Text) : Option Text :=
  match skipSpaces s with
  | '#' :: comment => lineEnd? (comment.dropWhile isPrintable)
  | rest => lineEnd? rest

/-- Skips spaces, line breaks and comments. The flag tells whether a comment is being read. -/
def skipLayout? : Bool → Text → Option Text
  | _, [] => some []
  | _, '\n' :: s => skipLayout? false s
  | _, '\r' :: '\n' :: s => skipLayout? false s
  | true, c :: s => if isPrintable c then skipLayout? true s else none
  | false, '#' :: s => skipLayout? true s
  | false, c :: s => if isSpace c then skipLayout? false s else some (c :: s)

end WikiDirectives.Toml
