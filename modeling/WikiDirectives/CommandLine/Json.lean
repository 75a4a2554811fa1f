import WikiDirectives.Text.Basic

/-! JSON texts with indentation. -/
namespace WikiDirectives.CommandLine

inductive Json where
  | text (content : Text)
  | array (items : List Json)
  | object (fields : List (Text × Json))

namespace Json

def hexDigit (n : Nat) : Char := if n < 10 then Char.ofNat (48 + n) else Char.ofNat (87 + n)

def escapeChar (c : Char) : Text :=
  match c with
  | '"' => "\\\"".toList
  | '\\' => "\\\\".toList
  | '\n' => "\\n".toList
  | '\r' => "\\r".toList
  | '\t' => "\\t".toList
  | '\x08' => "\\b".toList
  | '\x0c' => "\\f".toList
  | c =>
    if c.toNat < 0x20 then "\\u00".toList ++ [hexDigit (c.toNat / 16), hexDigit (c.toNat % 16)]
    else [c]

def quoted (content : Text) : Text := '"' :: content.flatMap escapeChar ++ ['"']

def newLine (indent : Nat) : Text := '\n' :: List.replicate (2 * indent) ' '

mutual
/-- A value whose inner lines are indented one step more than it is. -/
def pretty (indent : Nat) : Json → Text
  | text content => quoted content
  | array [] => "[]".toList
  | array (item :: items) =>
    '[' :: newLine (indent + 1) ++ pretty (indent + 1) item ++ prettyItems (indent + 1) items ++
      newLine indent ++ [']']
  | object [] => "\x7b\x7d".toList
  | object ((name, value) :: fields) =>
    '\x7b' :: newLine (indent + 1) ++ quoted name ++ ": ".toList ++ pretty (indent + 1) value ++
      prettyFields (indent + 1) fields ++ newLine indent ++ ['\x7d']

def prettyItems (indent : Nat) : List Json → Text
  | [] => []
  | item :: items => ',' :: newLine indent ++ pretty indent item ++ prettyItems indent items

def prettyFields (indent : Nat) : List (Text × Json) → Text
  | [] => []
  | (name, value) :: fields =>
    ',' :: newLine indent ++ quoted name ++ ": ".toList ++ pretty indent value ++
      prettyFields indent fields
end

end Json

end WikiDirectives.CommandLine
