import WikiDirectives.Text.Class

/-! Texts: their order, their lines, trimming, joining and decimal numerals. -/
namespace WikiDirectives

/-- A text is the list of its characters. -/
abbrev Text := List Char

namespace Text

/-- Strict order by code points, a proper start of a text standing before the text. -/
def before : Text → Text → Bool
  | _, [] => false
  | [], _ :: _ => true
  | a :: s, b :: t => if a = b then before s t else Nat.blt a.toNat b.toNat

theorem before_irrefl (s : Text) : before s s = false := by
  induction s with
  | nil => rfl
  | cons a s ih => simp [before, ih]

theorem before_trans {s t u : Text} (hst : before s t = true) (htu : before t u = true) :
    before s u = true := by
  induction s generalizing t u with
  | nil =>
    cases t with
    | nil => simp [before] at hst
    | cons b t => cases u with
      | nil => simp [before] at htu
      | cons c u => rfl
  | cons a s ih =>
    cases t with
    | nil => simp [before] at hst
    | cons b t => cases u with
      | nil => simp [before] at htu
      | cons c u =>
        simp only [before] at hst htu ⊢
        by_cases hab : a = b
        · subst hab
          by_cases hac : a = c
          · subst hac
            simp only [↓reduceIte] at hst htu ⊢
            exact ih hst htu
          · simpa [hac] using htu
        · by_cases hbc : b = c
          · subst hbc
            simpa [hab] using hst
          · simp only [hab, hbc, ↓reduceIte, Nat.blt_eq] at hst htu
            have hac : a ≠ c := fun h => by subst h; omega
            simp only [hac, ↓reduceIte, Nat.blt_eq]
            omega

theorem before_or_eq_or_before (s t : Text) : before s t = true ∨ s = t ∨ before t s = true := by
  induction s generalizing t with
  | nil => cases t with
    | nil => exact .inr (.inl rfl)
    | cons b t => exact .inl rfl
  | cons a s ih => cases t with
    | nil => exact .inr (.inr rfl)
    | cons b t =>
      by_cases hab : a = b
      · subst hab
        simpa [before] using ih t
      · have hne : a.toNat ≠ b.toNat := fun h => hab (Char.toNat_inj.mp h)
        simp only [before, hab, Ne.symm hab, ↓reduceIte, Nat.blt_eq]
        omega

/-- The lines of a text. A line ends at a line feed, and one carriage return just before that line
feed belongs to the ending; what follows the last line feed is a line unless it is empty. -/
def lines : Text → List Text
  | [] => []
  | '\n' :: s => [] :: lines s
  | '\r' :: '\n' :: s => [] :: lines s
  | c :: s => match lines s with
    | [] => [[c]]
    | line :: rest => (c :: line) :: rest

/-- The texts one after the other, with a separator between them. -/
def joined (separator : Text) : List Text → Text
  | [] => []
  | [s] => s
  | s :: t :: rest => s ++ separator ++ joined separator (t :: rest)

/-- The pieces of a text between the occurrences of a character; at least one, maybe empty. -/
def pieces (separator : Char) : Text → List Text
  | [] => [[]]
  | c :: s => if c = separator then [] :: pieces separator s else
    match pieces separator s with
    | [] => [[c]]
    | piece :: rest => (c :: piece) :: rest

def dropTrailing (p : Char → Bool) (s : Text) : Text := (s.reverse.dropWhile p).reverse

/-- A text without the blanks at its two ends. -/
def trim (s : Text) : Text := dropTrailing isBlank (s.dropWhile isBlank)

/-- Whether a text occurs in another. -/
def occursIn (part : Text) : Text → Bool
  | [] => part.isEmpty
  | c :: s => part.isPrefixOf (c :: s) || occursIn part s

/-- What follows a given start, if the text has that start. -/
def after? : (start s : Text) → Option Text
  | [], s => some s
  | a :: start, b :: s => if a = b then after? start s else none
  | _ :: _, [] => none

/-- What stands before and after the last occurrence of a character. -/
def splitLast? (c : Char) : Text → Option (Text × Text)
  | [] => none
  | d :: s => match splitLast? c s with
    | some (front, back) => some (d :: front, back)
    | none => if d = c then some ([], s) else none

theorem after?_length {start s rest : Text} (h : after? start s = some rest) :
    s.length = start.length + rest.length := by
  fun_induction after? start s with
  | case1 => simp_all
  | case2 a start s ih => simp [ih h]; omega
  | case3 => simp at h
  | case4 => simp at h

/-- How many bytes a text takes in UTF-8. -/
def byteLength (s : Text) : Nat := s.foldl (fun bytes c => bytes + c.utf8Size) 0

def digit (n : Nat) : Char := Char.ofNat (48 + n % 10)

/-- The decimal numeral of a number, without leading zeros. -/
def decimal (n : Nat) : Text :=
  if n < 10 then [digit n] else decimal (n / 10) ++ [digit (n % 10)]

end Text

end WikiDirectives
