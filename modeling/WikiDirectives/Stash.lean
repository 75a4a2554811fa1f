import WikiDirectives.Text.Numeral

/-! Contents kept aside while a page is expanded, each named by a token in the page. -/
namespace WikiDirectives

/-- The contents kept so far, oldest first. -/
structure Stash where
  entries : List Text := []
  deriving DecidableEq, Repr

namespace Stash

def tokenOpening : Text := '\x02' :: "wmstash:".toList
def tokenClosing : Char := '\x03'

/-- The token of the content at a place. -/
def token (place : Nat) : Text := tokenOpening ++ Text.decimal place ++ [tokenClosing]

def put (stash : Stash) (content : Text) : Stash := ⟨stash.entries ++ [content]⟩

/-- The token that the next content will have. -/
def nextToken (stash : Stash) : Text := token stash.entries.length

/-- The contents with their tokens. -/
def tokens (stash : Stash) : List (Text × Text) :=
  stash.entries.zipIdx.map fun (content, place) => (token place, content)

/-- The content at a place that is written as a numeral. -/
def atNumeral? (stash : Stash) (numeral : Text) : Option Text :=
  match Numeral.natural wordBound numeral with
  | .ok place => stash.entries[place]?
  | .error _ => none

/-- The content of a token. -/
def resolve? (stash : Stash) (text : Text) : Option Text := do
  let rest ← Text.after? ['\x02'] text
  let rest ← if rest.getLast? = some tokenClosing then some rest.dropLast else none
  let numeral ← Text.after? "wmstash:".toList rest
  stash.atNumeral? numeral

/-- The digits of the token that a text begins with, and what follows the token. -/
def tokenAt? (text : Text) : Option (Text × Text) := do
  let rest ← Text.after? tokenOpening text
  let following ← Text.after? [tokenClosing] (rest.dropWhile isDecimal)
  let digits := rest.takeWhile isDecimal
  if digits.isEmpty then none else some (digits, following)

theorem tokenAt?_length {s digits following : Text} (h : tokenAt? s = some (digits, following)) :
    following.length < s.length := by
  simp only [tokenAt?, Option.bind_eq_bind, Option.bind_eq_some_iff] at h
  obtain ⟨rest, hrest, after, hafter, h⟩ := h
  have h₁ := Text.after?_length hrest
  have h₂ := Text.after?_length hafter
  have h₃ := (List.dropWhile_sublist isDecimal (l := rest)).length_le
  simp only [List.length_cons, List.length_nil] at h₂
  grind

/-- Puts the contents in place of their tokens, in one pass from the left. A token without content
stays, and what comes out of the stash is not looked at again. -/
def substitute (stash : Stash) (text : Text) : Text :=
  match text with
  | [] => []
  | c :: s => match _ : tokenAt? (c :: s) with
    | some (digits, rest) =>
      (stash.atNumeral? digits).getD (tokenOpening ++ digits ++ [tokenClosing]) ++
        substitute stash rest
    | none => c :: substitute stash s
termination_by text.length
decreasing_by
  · exact tokenAt?_length ‹_›
  · simp

/-- All contents put in place of their tokens; without contents the text stays as it is. -/
def resolveAll (stash : Stash) (text : Text) : Text :=
  if stash.entries.isEmpty then text else stash.substitute text

end Stash

end WikiDirectives
