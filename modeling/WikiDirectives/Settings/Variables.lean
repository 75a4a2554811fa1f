import WikiDirectives.Files.Workspace

/-! Variables and the home directory in the paths of settings. -/
namespace WikiDirectives.Variables

def isNameChar (c : Char) : Bool := isAlphanumeric c || c = '_'

/-- What stands before and after the first occurrence of a text. -/
def cut? (mark : Text) : Text → Option (Text × Text)
  | [] => (Text.after? mark []).map fun rest => ([], rest)
  | c :: s => match Text.after? mark (c :: s) with
    | some rest => some ([], rest)
    | none => (cut? mark s).map fun (front, back) => (c :: front, back)

/-- The name between braces and the text to take if it is unset. A name is never empty when there
is such a text. -/
def nameAndDefault (inner : Text) : Text × Option Text :=
  match cut? ":-".toList inner with
  | some (c :: front, back) => (c :: front, some back)
  | _ => (inner, none)

/-- The value of a variable, or the name of one that is unset and has no default. -/
def value (environment : Dict Text) (name : Text) (default? : Option Text) : Except Text Text :=
  match environment.get? name, default? with
  | some value, _ => .ok value
  | none, some default => .ok default
  | none, none => .error name

/-- Puts the values of variables in place of their names, from the left and once. A doubled dollar
sign stands for one, and one without a name stays. Fails with the name of an unset variable. -/
def expand (environment : Dict Text) (s : Text) : Except Text Text :=
  match s with
  | [] => .ok []
  | '$' :: '$' :: rest => (expand environment rest).map ('$' :: ·)
  | '$' :: '\x7b' :: rest =>
    if rest.contains '\x7d' then do
      let (name, default?) := nameAndDefault (rest.takeWhile (· ≠ '\x7d'))
      let value ← value environment name default?
      let tail ← expand environment ((rest.dropWhile (· ≠ '\x7d')).drop 1)
      return value ++ tail
    else (expand environment rest).map ("$\x7b".toList ++ ·)
  | '$' :: c :: rest =>
    if isNameChar c then do
      let value ← value environment (c :: rest.takeWhile isNameChar) none
      let tail ← expand environment (rest.dropWhile isNameChar)
      return value ++ tail
    else (expand environment (c :: rest)).map ('$' :: ·)
  | c :: rest => (expand environment rest).map (c :: ·)
termination_by s.length
decreasing_by
  · simp only [List.length_cons]
    omega
  · have := (List.dropWhile_sublist (· ≠ '\x7d') (l := rest)).length_le
    simp only [List.length_cons, List.length_drop]
    omega
  · simp only [List.length_cons]
    omega
  · have := (List.dropWhile_sublist isNameChar (l := rest)).length_le
    simp only [List.length_cons]
    omega
  · simp
  · simp

/-- The names that a text may mention; the values of others do not matter to it. -/
def mentioned : Text → List Text
  | [] => []
  | '$' :: '\x7b' :: rest => (nameAndDefault (rest.takeWhile (· ≠ '\x7d'))).1 :: mentioned rest
  | '$' :: rest => rest.takeWhile isNameChar :: mentioned rest
  | _ :: rest => mentioned rest

def homeVariable : Text := "HOME".toList

/-- The home directory that the environment names, or else the one on record. An empty one is none. -/
def home? (environment : Dict Text) (onRecord : Option Path) : Option Path :=
  ((environment.get? homeVariable).filter (· ≠ [])).or (onRecord.filter (· ≠ []))

/-- Puts the home directory in place of a tilde that stands alone or before a slash. -/
def expandHome (home : Option Path) : Text → Text
  | '~' :: rest =>
    if rest.isEmpty || rest.head? = some '/' then home.getD ['~'] ++ rest else '~' :: rest
  | s => s

/-- A path with its variables and, if a tilde was written at its start, its home directory. -/
def expandPath (workspace : Workspace) (s : Text) : Except Text Path :=
  (expand workspace.environment s).map fun expanded =>
    if s.head? = some '~' then expandHome (home? workspace.environment workspace.home) expanded
    else expanded

end WikiDirectives.Variables
