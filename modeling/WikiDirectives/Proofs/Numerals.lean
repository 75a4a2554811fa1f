import Mathlib.Data.Nat.Notation
import Mathlib.Tactic.SplitIfs
import WikiDirectives.Text.Numeral

/-! Decimal numerals. A text is read as a number exactly if it is made of the ten digits, with or without
a plus sign, and the number that they denote is in range; so every number is read back from its
numeral. -/
namespace WikiDirectives

namespace Text

/-- One or more of the ten digits. -/
def IsNumeral (s : Text) : Prop := s ≠ [] ∧ ∀ c ∈ s, c.isDigit = true

instance (s : Text) : Decidable s.IsNumeral :=
  decidable_of_iff ((!s.isEmpty && s.all Char.isDigit) = true) (by simp [IsNumeral])

/-- The number that digits denote when they are read behind others that denote `n`. -/
def numberFrom (n : ℕ) (s : Text) : ℕ := s.foldl (fun n c => 10 * n + (c.toNat - 48)) n

/-- The number that digits denote. -/
def number (s : Text) : ℕ := numberFrom 0 s

lemma le_numberFrom (n : ℕ) (s : Text) : n ≤ numberFrom n s := by
  induction s generalizing n with
  | nil => exact Nat.le_refl n
  | cons c s ih =>
    have hrest := ih (10 * n + (c.toNat - 48))
    change n ≤ numberFrom (10 * n + (c.toNat - 48)) s
    omega

lemma isDigit_digit (n : ℕ) : (digit n).isDigit = true := by
  have h : ∀ m < 10, (Char.ofNat (48 + m)).isDigit = true := by decide
  exact h (n % 10) (Nat.mod_lt n (by decide))

lemma toNat_digit (n : ℕ) : (digit n).toNat = 48 + n % 10 := by
  have h : ∀ m < 10, (Char.ofNat (48 + m)).toNat = 48 + m := by decide
  exact h (n % 10) (Nat.mod_lt n (by decide))

lemma decimal_ne_nil (n : ℕ) : decimal n ≠ [] := by
  rw [decimal]
  split_ifs <;> simp

lemma isDigit_of_mem_decimal {n : ℕ} {c : Char} (h : c ∈ decimal n) : c.isDigit = true := by
  fun_induction decimal n with
  | case1 n _ =>
    rw [List.mem_singleton.mp h]
    exact isDigit_digit n
  | case2 n _ ih =>
    rcases List.mem_append.mp h with h | h
    · exact ih h
    · rw [List.mem_singleton.mp h]
      exact isDigit_digit (n % 10)

lemma isNumeral_decimal (n : ℕ) : (decimal n).IsNumeral :=
  ⟨decimal_ne_nil n, fun _ => isDigit_of_mem_decimal⟩

theorem number_decimal (n : ℕ) : (decimal n).number = n := by
  fun_induction decimal n with
  | case1 n hn =>
    simp only [number, numberFrom, List.foldl_cons, List.foldl_nil, toNat_digit]
    omega
  | case2 n _ ih =>
    simp only [number, numberFrom] at ih ⊢
    rw [List.foldl_append, ih, List.foldl_cons, List.foldl_nil, toNat_digit]
    omega

end Text

namespace Numeral
variable {bound n : ℕ} {s : Text}

/-- Digits are read onto a number in range exactly if what they denote behind it is in range too, as
no number gets smaller on the way. -/
theorem digits_eq_ok_iff {overflow : NumeralError} {value : ℕ} (hvalue : value ≤ bound) :
    digits bound overflow value s = .ok n ↔
      (∀ c ∈ s, c.isDigit = true) ∧ Text.numberFrom value s = n ∧ n ≤ bound := by
  fun_induction digits bound overflow value s with
  | case1 value =>
    simp only [Except.ok.injEq, List.not_mem_nil, false_implies, implies_true, true_and]
    constructor
    · rintro rfl
      exact ⟨rfl, hvalue⟩
    · exact And.left
  | case2 value c s hc =>
    have hdigit : c.isDigit = false := by simpa [digit?] using hc
    simp [hdigit]
  | case3 value c s d hc hfit ih =>
    obtain ⟨hdigit, rfl⟩ : c.isDigit = true ∧ c.toNat - 48 = d := by simpa [digit?] using hc
    rw [ih hfit, List.forall_mem_cons]
    simp only [hdigit, true_and]
    rfl
  | case4 value c s d hc hfit =>
    obtain ⟨hdigit, rfl⟩ : c.isDigit = true ∧ c.toNat - 48 = d := by simpa [digit?] using hc
    simp only [reduceCtorEq, false_iff]
    rintro ⟨-, rfl, hle⟩
    have hgrows := Text.le_numberFrom (10 * value + (c.toNat - 48)) s
    exact hfit (Nat.le_trans hgrows hle)

theorem natural_eq_ok_iff : natural bound s = .ok n ↔
    ∃ numeral : Text, numeral.IsNumeral ∧ (s = numeral ∨ s = '+' :: numeral) ∧
      numeral.number = n ∧ n ≤ bound := by
  have hplus : '+'.isDigit = false := rfl
  fun_cases natural bound s with
  | case1 =>
    simp only [reduceCtorEq, false_iff]
    rintro ⟨numeral, hnumeral, rfl | h, -⟩
    · exact hnumeral.1 rfl
    · simp at h
  | case2 =>
    simp only [reduceCtorEq, false_iff]
    rintro ⟨numeral, hnumeral, rfl | h, -⟩
    · simpa [hplus] using hnumeral.2 '+' (by simp)
    · exact hnumeral.1 (by simpa using h.symm)
  | case3 s hne =>
    rw [digits_eq_ok_iff (Nat.zero_le bound)]
    constructor
    · rintro ⟨hdigits, hnumber⟩
      exact ⟨s, ⟨fun hnil => hne (by rw [hnil]), hdigits⟩, .inr rfl, hnumber⟩
    · rintro ⟨numeral, hnumeral, rfl | h, hnumber⟩
      · simpa [hplus] using hnumeral.2 '+' (by simp)
      · obtain rfl := (List.cons.inj h).2
        exact ⟨hnumeral.2, hnumber⟩
  | case4 _ hnil _ hsign =>
    rw [digits_eq_ok_iff (Nat.zero_le bound)]
    constructor
    · rintro ⟨hdigits, hnumber⟩
      exact ⟨s, ⟨hnil, hdigits⟩, .inl rfl, hnumber⟩
    · rintro ⟨numeral, hnumeral, rfl | rfl, hnumber⟩
      · exact ⟨hnumeral.2, hnumber⟩
      · exact absurd rfl (hsign numeral)

/-- A number in range is read back from its numeral. -/
theorem natural_decimal (h : n ≤ bound) : natural bound (Text.decimal n) = .ok n :=
  natural_eq_ok_iff.mpr
    ⟨Text.decimal n, Text.isNumeral_decimal n, .inl rfl, Text.number_decimal n, h⟩

end Numeral

end WikiDirectives
