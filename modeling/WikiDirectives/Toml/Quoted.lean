import WikiDirectives.Toml.Layout

/-! The four kinds of quoted texts of TOML. -/
namespace WikiDirectives.Toml

def hexDigit? (c : Char) : Option Nat :=
  if c.isDigit then some (c.toNat - 48)
  else if 97 ≤ c.toNat && c.toNat ≤ 102 then some (c.toNat - 87)
  else if 65 ≤ c.toNat && c.toNat ≤ 70 then some (c.toNat - 55)
  else none

/-- The number that hexadecimal digits stand for. -/
def hexNumber? (digits : Text) : Option Nat :=
  digits.foldlM (fun number c => (hexDigit? c).map (16 * number + ·)) 0

/-- A character given by a number of hexadecimal digits, and what follows them. -/
def codePoint? (width : Nat) (s : Text) : Option (Char × Text) := do
  let number ← hexNumber? (s.take width)
  if (s.take width).length = width && Nat.isValidChar number then
    some (Char.ofNat number, s.drop width)
  else none

/-- The character of an escape, and what follows it; the backslash is already read. -/
def escape? : Text → Option (Char × Text)
  | [] => none
  | c :: s => match c with
    | 'b' => some ('\x08', s)
    | 't' => some ('\t', s)
    | 'n' => some ('\n', s)
    | 'f' => some ('\x0c', s)
    | 'r' => some ('\r', s)
    | 'e' => some ('\x1b', s)
    | '"' => some ('"', s)
    | '\\' => some ('\\', s)
    | 'x' => codePoint? 2 s
    | 'u' => codePoint? 4 s
    | 'U' => codePoint? 8 s
    | _ => none

theorem codePoint?_length {width : Nat} {s rest : Text} {c : Char}
    (h : codePoint? width s = some (c, rest)) : rest.length ≤ s.length := by
  simp only [codePoint?, Option.bind_eq_bind, Option.bind_eq_some_iff] at h
  obtain ⟨number, -, h⟩ := h
  split at h
  · simp only [Option.some.injEq, Prod.mk.injEq] at h
    simp [← h.2]
  · simp at h

theorem escape?_length {s rest : Text} {c : Char} (h : escape? s = some (c, rest)) :
    rest.length < s.length := by
  cases s with
  | nil => simp [escape?] at h
  | cons d s =>
    simp only [escape?] at h
    rw [List.length_cons]
    split at h
    case h_9 | h_10 | h_11 => exact Nat.lt_succ_of_le (codePoint?_length h)
    all_goals simp_all

/-- Puts text before what was read. -/
def prepend (text : Text) (found : Text × Text) : Text × Text := (text ++ found.1, found.2)

/-- A text between double quotes; the first one is already read. -/
def basic? (s : Text) : Option (Text × Text) :=
  match s with
  | [] => none
  | '"' :: rest => some ([], rest)
  | '\\' :: rest => match _ : escape? rest with
    | some (c, rest) => (basic? rest).map (prepend [c])
    | none => none
  | c :: rest => if isPrintable c then (basic? rest).map (prepend [c]) else none
termination_by s.length
decreasing_by
  · have := escape?_length ‹_›
    simp only [List.length_cons]
    omega
  · simp

/-- A text between single quotes, without escapes; the first quote is already read. -/
def literal? (s : Text) : Option (Text × Text) :=
  let inside c := isPrintable c && c ≠ '\x27'
  (Text.after? ['\x27'] (s.dropWhile inside)).map fun rest => (s.takeWhile inside, rest)

/-- The closing of a text between triple quotes. Up to two quotes before it belong to the text. -/
def closing? (quote : Char) (s : Text) : Option (Text × Text) :=
  let run := (s.takeWhile (· = quote)).length
  if run < 3 then none
  else some (List.replicate (min (run - 3) 2) quote, s.drop (min run 5))

/-- Skips spaces and line breaks. -/
def skipLines : Text → Text
  | '\n' :: s => skipLines s
  | '\r' :: '\n' :: s => skipLines s
  | c :: s => if isSpace c then skipLines s else c :: s
  | [] => []

/-- What follows a backslash at the end of a line, and the blank lines and spaces after it. -/
def continuation? (s : Text) : Option Text := (newline? (skipSpaces s)).map skipLines

theorem newline?_length {s rest : Text} (h : newline? s = some rest) :
    rest.length ≤ s.length := by
  unfold newline? at h
  split at h <;> simp_all
  omega

theorem skipLines_length (s : Text) : (skipLines s).length ≤ s.length := by
  fun_induction skipLines s <;> simp_all <;> omega

theorem continuation?_length {s rest : Text} (h : continuation? s = some rest) :
    rest.length ≤ s.length := by
  obtain ⟨tail, htail, rfl⟩ := Option.map_eq_some_iff.mp h
  have h₁ := newline?_length htail
  have h₂ := skipLines_length tail
  have h₃ := (List.dropWhile_sublist isSpace (l := s)).length_le
  unfold skipSpaces at h₁
  omega

/-- A text between triple double quotes; the opening and its line break are already read. -/
def multilineBasic? (s : Text) : Option (Text × Text) :=
  match closing? '"' s with
  | some found => some found
  | none => match s with
    | [] => none
    | '\\' :: rest => match _ : continuation? rest with
      | some rest => multilineBasic? rest
      | none => match _ : escape? rest with
        | some (c, rest) => (multilineBasic? rest).map (prepend [c])
        | none => none
    | '\r' :: '\n' :: rest => (multilineBasic? rest).map (prepend ['\r', '\n'])
    | c :: rest =>
      if isPrintable c || c = '\n' then (multilineBasic? rest).map (prepend [c]) else none
termination_by s.length
decreasing_by
  · have := continuation?_length ‹_›
    simp only [List.length_cons]
    omega
  · have := escape?_length ‹_›
    simp only [List.length_cons]
    omega
  · simp only [List.length_cons]
    omega
  · simp

/-- A text between triple single quotes; the opening and its line break are already read. -/
def multilineLiteral? (s : Text) : Option (Text × Text) :=
  match closing? '\x27' s with
  | some found => some found
  | none => match s with
    | [] => none
    | '\r' :: '\n' :: rest => (multilineLiteral? rest).map (prepend ['\r', '\n'])
    | c :: rest =>
      if isPrintable c || c = '\n' then (multilineLiteral? rest).map (prepend [c]) else none
termination_by s.length

/-- A line break right after the opening of a multi-line text is no part of it. -/
def skipFirstBreak (s : Text) : Text := (newline? s).getD s

/-- A quoted text of any kind, and what follows it. -/
def quoted? : Text → Option (Text × Text)
  | '"' :: '"' :: '"' :: s => multilineBasic? (skipFirstBreak s)
  | '"' :: s => basic? s
  | '\x27' :: '\x27' :: '\x27' :: s => multilineLiteral? (skipFirstBreak s)
  | '\x27' :: s => literal? s
  | _ => none

end WikiDirectives.Toml
