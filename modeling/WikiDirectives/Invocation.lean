import WikiDirectives.Arguments.Fragment

/-! Directives in a line: a name in brackets, with or without arguments. -/
namespace WikiDirectives

/-- A directive as it stands in a line: its name, and what is written of its arguments. -/
structure Invocation where
  name : Text
  fragment : Option Text
  deriving DecidableEq, Repr

namespace Invocation

def arguments (invocation : Invocation) : Arguments :=
  match invocation.fragment with
  | none => .empty
  | some fragment => Fragment.arguments fragment

/-- Whether a closing bracket stands in the first line of a text. -/
def closesInLine : Text → Bool
  | [] => false
  | c :: s => if c = '\n' then false else if c = ']' then true else closesInLine s

/-- What stands before the last closing bracket in the first line of a text. Without a bracket,
which is looked for first, nothing of the line is copied. -/
def beforeClosing? (s : Text) : Option Text :=
  if closesInLine s then (Text.splitLast? ']' (s.takeWhile (· != '\n'))).map (·.1) else none

theorem beforeClosing?_eq (s : Text) :
    beforeClosing? s = (Text.splitLast? ']' (s.takeWhile (· != '\n'))).map (·.1) := by
  unfold beforeClosing?
  split
  · rfl
  · rename_i h
    fun_induction closesInLine s with
    | case1 => rfl
    | case2 => simp [Text.splitLast?]
    | case3 => simp at h
    | case4 c s hline hclose ih =>
      have ih := Option.map_eq_none_iff.mp (ih h).symm
      simp [hline, Text.splitLast?, ih, hclose]

/-- The fragment at the start of a text, up to the last closing bracket of the line: a word, a
colon, and at least one more character. The blank before it is already read. -/
def fragmentAt? (s : Text) : Option Text := do
  let key := s.takeWhile isWord
  let rest ← Text.after? [':'] (s.dropWhile isWord)
  let body ← beforeClosing? rest
  if key.isEmpty || body.isEmpty then none else some (key ++ ':' :: body)

/-- The directive whose opening bracket stands just before a text. -/
def at? (s : Text) : Option Invocation :=
  let name := s.takeWhile isWord
  if name.isEmpty then none else
  match s.dropWhile isWord with
  | [] => none
  | c :: rest =>
    if c = ']' then some ⟨name, none⟩
    else if isBlank c then (fragmentAt? rest).map fun fragment => ⟨name, some (c :: fragment)⟩
    else none

/-- The first directive of a line. -/
def detect : Text → Option Invocation
  | [] => none
  | c :: s => if c = '[' then (at? s).or (detect s) else detect s

end Invocation

end WikiDirectives
