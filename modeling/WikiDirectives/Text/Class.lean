import WikiDirectives.Text.Alphabetic
import WikiDirectives.Text.Mark
import WikiDirectives.Text.Number
import WikiDirectives.Text.Recent

/-! The character classes of the directive grammar and of directive names.

The two are close but not the same: a superscript digit is alphanumeric and no word character, a
connector such as the undertie is a word character and not alphanumeric. The grammar also follows an
earlier version of Unicode: a letter that is new in the latest one may stand in a handler's name and
is not read in a directive. -/
namespace WikiDirectives

def connectorRanges : CharRanges :=
  [(0x5F, 0x5F), (0x203F, 0x2040), (0x2054, 0x2054), (0xFE33, 0xFE34), (0xFE4D, 0xFE4F),
   (0xFF3F, 0xFF3F)]

def blankRanges : CharRanges :=
  [(0x9, 0xD), (0x20, 0x20), (0x85, 0x85), (0xA0, 0xA0), (0x1680, 0x1680), (0x2000, 0x200A),
   (0x2028, 0x2029), (0x202F, 0x202F), (0x205F, 0x205F), (0x3000, 0x3000)]

/-- Connecting punctuation, the low line among it. -/
def isConnector (c : Char) : Bool := connectorRanges.covers c.toNat

/-- The zero width joiner and non-joiner. -/
def isJoinControl (c : Char) : Bool := c.toNat == 0x200C || c.toNat == 0x200D

/-- White space of any kind, line breaks included. -/
def isBlank (c : Char) : Bool := blankRanges.covers c.toNat

/-- The characters a directive's name and an argument's name are read with, as version 16 of Unicode
has them. -/
def isWord (c : Char) : Bool :=
  (isAlphabetic c || isMark c || isDecimal c || isConnector c || isJoinControl c) && !isRecent c

/-- The characters, beside the low line, that a handler's name may be made of. -/
def isAlphanumeric (c : Char) : Bool := isAlphabetic c || isDecimal c || isOtherNumber c

end WikiDirectives
