import Mathlib.Data.List.TakeWhile
import Mathlib.Tactic.IntervalCases
import WikiDirectives.Text.Basic

/-! Which characters end a word, and how a text splits into a run of characters and what follows. -/
namespace WikiDirectives

/-! ## Classes -/

lemma CharRanges.exists_of_covers {ranges : CharRanges} {n : ℕ} (h : ranges.covers n = true) :
    ∃ range ∈ ranges, range.1 ≤ n ∧ n ≤ range.2 := by
  induction ranges with
  | nil => simp [CharRanges.covers] at h
  | cons range rest ih =>
    obtain ⟨low, high⟩ := range
    simp only [CharRanges.covers] at h
    split_ifs at h with hlow hhigh
    · exact ⟨(low, high), by simp, by omega, hhigh⟩
    · obtain ⟨range, hmem, hrange⟩ := ih h
      exact ⟨range, List.mem_cons_of_mem _ hmem, hrange⟩

lemma isWord_of_toNat {c : Char} {n : ℕ} (h : c.toNat = n) :
    isWord c = ((alphabeticRanges.covers n || markRanges.covers n || decimalRanges.covers n ||
      connectorRanges.covers n || (n == 0x200C || n == 0x200D)) && !recentRanges.covers n) := by
  subst h
  rfl

theorem isWord_eq_false_of_isBlank {c : Char} (h : isBlank c = true) : isWord c = false := by
  obtain ⟨⟨low, high⟩, hmem, hlow, hhigh⟩ := CharRanges.exists_of_covers h
  generalize hn : c.toNat = n at hlow hhigh
  rw [isWord_of_toNat hn]
  -- The blanks are ten short ranges of code points, none of which meets a range of word characters.
  simp only [blankRanges, List.mem_cons, List.not_mem_nil, or_false, Prod.mk.injEq] at hmem
  rcases hmem with ⟨rfl, rfl⟩ | ⟨rfl, rfl⟩ | ⟨rfl, rfl⟩ | ⟨rfl, rfl⟩ | ⟨rfl, rfl⟩ | ⟨rfl, rfl⟩ |
    ⟨rfl, rfl⟩ | ⟨rfl, rfl⟩ | ⟨rfl, rfl⟩ | ⟨rfl, rfl⟩ <;>
  · dsimp only at hlow hhigh
    interval_cases n <;> decide +kernel

lemma isWord_space : isWord ' ' = false := rfl
lemma isWord_colon : isWord ':' = false := rfl
lemma isWord_closing : isWord ']' = false := rfl
lemma isWord_newline : isWord '\n' = false := rfl
lemma isBlank_closing : isBlank ']' = false := rfl
lemma isBlank_space : isBlank ' ' = true := rfl

namespace Text

/-- A word: one or more word characters. -/
def IsWord (s : Text) : Prop := s ≠ [] ∧ ∀ c ∈ s, isWord c = true

instance (s : Text) : Decidable s.IsWord :=
  decidable_of_iff ((!s.isEmpty && s.all isWord) = true) (by simp [IsWord])

/-! ## Runs -/

/-- A text that does not go on with a character of a class. -/
def Stops (p : Char → Bool) (s : Text) : Prop := ∀ c ∈ s.head?, p c = false

variable {p : Char → Bool} {s t rest rest' : Text} {c : Char}

@[simp] lemma stops_cons : Stops p (c :: s) ↔ p c = false := by simp [Stops]

lemma stops_dropWhile (p : Char → Bool) (s : Text) : Stops p (s.dropWhile p) := by
  intro c hc
  have h := List.head?_dropWhile_not p s
  rw [Option.mem_def.mp hc] at h
  exact h

lemma takeWhile_run (hs : ∀ c ∈ s, p c = true) (hrest : Stops p rest) :
    (s ++ rest).takeWhile p = s := by
  rw [List.takeWhile_append_of_pos hs]
  cases rest with
  | nil => simp
  | cons c rest => simp [stops_cons.mp hrest]

lemma dropWhile_run (hs : ∀ c ∈ s, p c = true) (hrest : Stops p rest) :
    (s ++ rest).dropWhile p = rest := by
  rw [List.dropWhile_append_of_pos hs]
  cases rest with
  | nil => rfl
  | cons c rest => simp [stops_cons.mp hrest]

/-- A text has only one longest run at its start. -/
theorem run_unique (hs : ∀ c ∈ s, p c = true) (ht : ∀ c ∈ t, p c = true) (hrest : Stops p rest)
    (hrest' : Stops p rest') (h : s ++ rest = t ++ rest') : s = t ∧ rest = rest' := by
  constructor
  · rw [← takeWhile_run hs hrest, h, takeWhile_run ht hrest']
  · rw [← dropWhile_run hs hrest, h, dropWhile_run ht hrest']

/-! ## Starts -/

@[simp] lemma after?_append (start s : Text) : after? start (start ++ s) = some s := by
  induction start with
  | nil => rfl
  | cons c start ih => simpa [after?] using ih

theorem after?_eq_some_iff {start s rest : Text} : after? start s = some rest ↔ s = start ++ rest := by
  constructor
  · intro h
    fun_induction after? start s with
    | case1 s => simpa using h
    | case2 c start s ih => simp [ih h]
    | case3 => simp at h
    | case4 => simp at h
  · rintro rfl
    exact after?_append start rest

/-! ## Pieces -/

lemma pieces_of_not_mem {separator : Char} (h : separator ∉ s) : pieces separator s = [s] := by
  induction s with
  | nil => rfl
  | cons c s ih =>
    simp only [List.mem_cons, not_or] at h
    simp [pieces, Ne.symm h.1, ih h.2]

lemma pieces_ne_nil (separator : Char) (s : Text) : pieces separator s ≠ [] := by
  fun_cases pieces separator s <;> simp

theorem pieces_append_separator (separator : Char) (s t : Text) :
    pieces separator (s ++ separator :: t) = pieces separator s ++ pieces separator t := by
  induction s with
  | nil => simp [pieces]
  | cons c s ih =>
    obtain ⟨piece, rest, hpieces⟩ := List.exists_cons_of_ne_nil (pieces_ne_nil separator s)
    rw [hpieces] at ih
    by_cases hc : c = separator <;> simp [pieces, hc, ih, hpieces]

lemma pieces_append {separator : Char} (h : separator ∉ s) (t : Text) :
    pieces separator (s ++ separator :: t) = s :: pieces separator t := by
  rw [pieces_append_separator, pieces_of_not_mem h, List.singleton_append]

/-! ## Last occurrences -/

variable {front back : Text}

theorem splitLast?_eq_none_iff : splitLast? c s = none ↔ c ∉ s := by
  induction s with
  | nil => simp [splitLast?]
  | cons d s ih =>
    rw [splitLast?]
    cases hs : splitLast? c s with
    | some found =>
      have hmem : c ∈ s := by
        by_contra hnot
        simp [ih.mpr hnot] at hs
      simp [hmem]
    | none =>
      have hnot := ih.mp hs
      by_cases hd : d = c
      · simp [hd]
      · simp [hd, hnot, Ne.symm hd]

theorem eq_append_of_splitLast? (h : splitLast? c s = some (front, back)) :
    s = front ++ c :: back ∧ c ∉ back := by
  induction s generalizing front with
  | nil => simp [splitLast?] at h
  | cons d s ih =>
    rw [splitLast?] at h
    cases hs : splitLast? c s with
    | some found =>
      obtain ⟨front', back'⟩ := found
      obtain ⟨rfl, rfl⟩ : d :: front' = front ∧ back' = back := by simpa [hs] using h
      obtain ⟨rfl, hback⟩ := ih hs
      exact ⟨rfl, hback⟩
    | none =>
      obtain ⟨rfl, rfl, rfl⟩ : d = c ∧ [] = front ∧ s = back := by simpa [hs] using h
      exact ⟨rfl, splitLast?_eq_none_iff.mp hs⟩

lemma splitLast?_append (hback : c ∉ back) : splitLast? c (front ++ c :: back) = some (front, back) := by
  induction front with
  | nil => simp [splitLast?, splitLast?_eq_none_iff.mpr hback]
  | cons d front ih => simp [splitLast?, ih]

/-- The last occurrence stands no further left than any other. -/
theorem length_le_of_not_mem {front' back' : Text} (hback : c ∉ back)
    (h : front ++ c :: back = front' ++ c :: back') : front'.length ≤ front.length := by
  rcases List.append_eq_append_iff.mp h with ⟨between, rfl, hrest⟩ | ⟨between, rfl, -⟩
  · cases between with
    | nil => simp
    | cons d between =>
      obtain ⟨-, rfl⟩ : c = d ∧ back = between ++ c :: back' := by simpa using hrest
      simp at hback
  · simp

end Text
end WikiDirectives
