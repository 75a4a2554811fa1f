import WikiDirectives.Arguments.Basic

/-! The written form of arguments: names, each alone or with a colon and a value. A value is a
quoted text with backslash escapes, or a run of characters other than blanks. -/
namespace WikiDirectives.Fragment

/-- Takes off the backslash of each escape. -/
def unescape : Text → Text
  | [] => []
  | '\\' :: c :: s => c :: unescape s
  | ['\\'] => []
  | c :: s => c :: unescape s

/-- The body of a quoted text, still escaped, and what follows its closing quote. There is none if
the quote stays open, or if a backslash ends the line or the text. -/
def quoted? : Text → Option (Text × Text)
  | [] => none
  | '\x27' :: s => some ([], s)
  | '\\' :: c :: s => if c = '\n' then none else
    (quoted? s).map fun (body, rest) => ('\\' :: c :: body, rest)
  | ['\\'] => none
  | c :: s => (quoted? s).map fun (body, rest) => (c :: body, rest)

/-- The value after a name, and what follows it. A quote that stays open is kept with all up to the
end of its line. -/
def value : Text → ArgValue × Text
  | ':' :: '\x27' :: s => match quoted? s with
    | some (body, rest) => (.text (unescape body), rest)
    | none => (.text ('\x27' :: s.takeWhile (· != '\n')), s.dropWhile (· != '\n'))
  | ':' :: s => (.text (s.takeWhile (!isBlank ·)), s.dropWhile (!isBlank ·))
  | s => (.flag, s)

theorem quoted?_length {s body rest : Text} (h : quoted? s = some (body, rest)) :
    rest.length ≤ s.length := by
  fun_induction quoted? s generalizing body with
  | case1 => simp at h
  | case2 => grind
  | case3 => simp at h
  | case4 c s _ ih =>
    obtain ⟨⟨body', rest'⟩, hq, he⟩ := Option.map_eq_some_iff.mp h
    have := ih (show quoted? s = some (body', rest) by grind)
    grind
  | case5 => simp at h
  | case6 c s _ _ _ ih =>
    obtain ⟨⟨body', rest'⟩, hq, he⟩ := Option.map_eq_some_iff.mp h
    have := ih (show quoted? s = some (body', rest) by grind)
    grind

theorem value_length (s : Text) : (value s).2.length ≤ s.length := by
  unfold value
  split
  · split
    · have := quoted?_length (by assumption)
      simp only [List.length_cons]
      omega
    · have := (List.dropWhile_sublist (· != '\n') (l := by assumption)).length_le
      simp only [List.length_cons]
      omega
  · have := (List.dropWhile_sublist (!isBlank ·) (l := by assumption)).length_le
    simp only [List.length_cons]
    omega
  · exact Nat.le_refl _

/-- The named values of a fragment in the order they are written. What is no word character between
them is skipped. -/
def tokens (s : Text) : List (Text × ArgValue) :=
  match _ : s.dropWhile (!isWord ·) with
  | [] => []
  | c :: word =>
    let name := (c :: word).takeWhile isWord
    let found := value (word.dropWhile isWord)
    (name, found.1) :: tokens found.2
termination_by s.length
decreasing_by
  have h₁ := (List.dropWhile_sublist (!isWord ·) (l := s)).length_le
  have h₂ := value_length (word.dropWhile isWord)
  have h₃ := (List.dropWhile_sublist isWord (l := word)).length_le
  rw [‹s.dropWhile _ = _›, List.length_cons] at h₁
  omega

/-- The arguments of a fragment; of two values under one name the later counts. -/
def arguments (s : Text) : Arguments := Dict.ofList (tokens s)

/-! ## Writing -/

/-- A text between quotes, with a backslash before each quote and each backslash in it. -/
def quote (s : Text) : Text :=
  '\x27' :: s.flatMap (fun c => if c = '\x27' ∨ c = '\\' then ['\\', c] else [c]) ++ ['\x27']

/-- A written argument: a blank, its name, and the quoted text if it has one. -/
def write : Text × ArgValue → Text
  | (name, .flag) => ' ' :: name
  | (name, .text content) => ' ' :: name ++ ':' :: quote content

end WikiDirectives.Fragment
