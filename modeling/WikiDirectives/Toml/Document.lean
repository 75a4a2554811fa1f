import WikiDirectives.Toml.Scalar

/-! Reading TOML documents. A document that breaks a rule has no reading. -/
namespace WikiDirectives.Toml

/-! ## Keys -/

def isBareKey (c : Char) : Bool := c.isAlphanum || c = '_' || c = '-'

def simpleKey? (s : Text) : Option (Text × Text) :=
  match s with
  | '"' :: rest => basic? rest
  | '\x27' :: rest => literal? rest
  | s =>
    if (s.takeWhile isBareKey).isEmpty then none
    else some (s.takeWhile isBareKey, s.dropWhile isBareKey)

/-- The parts of a key between its dots, and what follows it. -/
def keyParts? (s : Text) : Option (List Text × Text) :=
  match simpleKey? s with
  | none => none
  | some (part, rest) => match skipSpaces rest with
    | '.' :: more =>
      if (skipSpaces more).length < s.length then
        (keyParts? (skipSpaces more)).map fun (parts, rest) => (part :: parts, rest)
      else none
    | rest => some ([part], rest)
termination_by s.length

/-- How deep brackets and braces may be nested, and how many parts a key may have. -/
def maxNesting : Nat := 80

/-- A key, and what follows it. -/
def key? (s : Text) : Option (List Text × Text) :=
  (keyParts? s).filter fun (parts, _) => parts.length ≤ maxNesting

/-! ## Values -/

/-- Reads a value and what follows it. -/
abbrev ValueReader := Text → Option (Value × Text)

/-- The items of an array up to its closing bracket. -/
def items? (read : ValueReader) (s : Text) : Option (List Value × Text) :=
  match skipLayout? false s with
  | none => none
  | some (']' :: rest) => some ([], rest)
  | some inner => match read inner with
    | none => none
    | some (item, rest) => match skipLayout? false rest with
      | some (']' :: rest) => some ([item], rest)
      | some (',' :: rest) =>
        if rest.length < s.length then
          (items? read rest).map fun (items, rest) => (item :: items, rest)
        else none
      | _ => none
termination_by s.length

/-- A key with its value, and what follows. What may stand around the equals sign is skipped. -/
def keyValue? (skip? : Text → Option Text) (read : ValueReader) (s : Text) :
    Option ((List Text × Value) × Text) := do
  let (key, rest) ← key? s
  let rest ← Text.after? ['='] (← skip? rest)
  let (value, rest) ← read (← skip? rest)
  return ((key, value), rest)

/-- The entries of an inline table up to its closing brace. -/
def fields? (read : ValueReader) (entries : Entries) (s : Text) : Option (Entries × Text) :=
  match skipLayout? false s with
  | none => none
  | some ('\x7d' :: rest) => some (entries, rest)
  | some inner => match keyValue? (skipLayout? false) read inner with
    | none => none
    | some ((key, value), rest) => match entries.addDotted key value with
      | none => none
      | some entries => match skipLayout? false rest with
        | some ('\x7d' :: rest) => some (entries, rest)
        | some (',' :: rest) =>
          if rest.length < s.length then fields? read entries rest else none
        | _ => none
termination_by s.length

/-- A value in which brackets and braces are nested up to a depth. -/
def value? : Nat → ValueReader
  | depth, s => match s with
    | '"' :: _ | '\x27' :: _ => (quoted? s).map fun (content, rest) => (.text content, rest)
    | '[' :: rest => match depth with
      | 0 => none
      | depth + 1 => (items? (value? depth) rest).map fun (items, rest) => (.array items, rest)
    | '\x7b' :: rest => match depth with
      | 0 => none
      | depth + 1 =>
        (fields? (value? depth) [] rest).map fun (entries, rest) => (.table .inline entries, rest)
    | _ => scalar? s

/-! ## Documents -/

/-- A document read so far: its entries, and the header of the table that is open. -/
structure Draft where
  entries : Entries := []
  header : List Text := []

/-- Reads the header or the entry at the start of a line, and what follows it. -/
def statement? (draft : Draft) (s : Text) : Option (Draft × Text) :=
  match s with
  | '[' :: '[' :: rest => match key? (skipSpaces rest) with
    | some (header, ']' :: ']' :: rest) =>
      (draft.entries.openRow header).map fun entries => (⟨entries, header⟩, rest)
    | _ => none
  | '[' :: rest => match key? (skipSpaces rest) with
    | some (header, ']' :: rest) =>
      (draft.entries.openTable header).map fun entries => (⟨entries, header⟩, rest)
    | _ => none
  | s => match keyValue? (some ∘ skipSpaces) (value? maxNesting) s with
    | some ((key, value), rest) =>
      (draft.entries.addBelow draft.header key value).map fun entries =>
        ({ draft with entries := entries }, rest)
    | none => none

/-- Reads the lines of a document, each blank or with one statement. -/
def lines? (draft : Draft) (s : Text) : Option Entries :=
  match s with
  | [] => some draft.entries
  | s => match endOfLine? s with
    | some rest => if rest.length < s.length then lines? draft rest else none
    | none => match statement? draft (skipSpaces s) with
      | none => none
      | some (draft, rest) => match endOfLine? rest with
        | some rest => if rest.length < s.length then lines? draft rest else none
        | none => none
termination_by s.length

/-- The entries of a document. A byte order mark at its start is skipped. -/
def parse? : Text → Option Entries
  | '\ufeff' :: s => lines? {} s
  | s => lines? {} s

end WikiDirectives.Toml
