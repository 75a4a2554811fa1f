import WikiDirectives.Proofs.Characters
import WikiDirectives.Proofs.Numerals
import WikiDirectives.Stash

/-! Tokens are read back: the token that a content got is replaced by this content, once, whatever
stands around it. -/
namespace WikiDirectives

/-- The ten digits are among the decimal digits of all scripts. -/
theorem isDecimal_of_isDigit {c : Char} (h : c.isDigit = true) : isDecimal c = true := by
  have hc : 48 ≤ c.toNat ∧ c.toNat ≤ 57 := by
    simpa [Char.isDigit, UInt32.le_iff_toNat_le] using h
  have hlow : ¬ c.toNat < 0x30 := by omega
  simp [isDecimal, decimalRanges, CharRanges.covers, hlow, hc.2]

namespace Stash

/-- Digits of any script, at least one. -/
def IsDigits (digits : Text) : Prop := digits ≠ [] ∧ ∀ c ∈ digits, isDecimal c = true

/-- The text with the form of a token that has the given digits. -/
def tokenOf (digits : Text) : Text := tokenOpening ++ digits ++ [tokenClosing]

variable {stash : Stash} {place : ℕ} {s digits rest : Text} {c : Char}

lemma tokenOf_ne_nil (digits : Text) : tokenOf digits ≠ [] := by simp [tokenOf]

lemma tokenOf_append (digits rest : Text) :
    tokenOf digits ++ rest = tokenOpening ++ (digits ++ tokenClosing :: rest) := by
  simp [tokenOf]

/-- A token is found at the start of a text just if the text starts with it. -/
theorem tokenAt?_eq_some_iff :
    tokenAt? s = some (digits, rest) ↔ s = tokenOf digits ++ rest ∧ IsDigits digits := by
  rw [tokenOf_append]
  constructor
  · intro h
    simp only [tokenAt?, Option.bind_eq_bind, Option.bind_eq_some_iff] at h
    obtain ⟨body, hbody, following, hfollowing, h⟩ := h
    split_ifs at h with hempty
    obtain ⟨rfl, rfl⟩ : body.takeWhile isDecimal = digits ∧ following = rest := by simpa using h
    refine ⟨?_, by simpa using hempty, fun c hc => List.mem_takeWhile_imp hc⟩
    rw [Text.after?_eq_some_iff.mp hbody, List.append_cancel_left_eq]
    rw [← List.singleton_append, ← Text.after?_eq_some_iff.mp hfollowing,
      List.takeWhile_append_dropWhile]
  · rintro ⟨rfl, hne, hdigits⟩
    have hstop : Text.Stops isDecimal (tokenClosing :: rest) := Text.stops_cons.mpr rfl
    rw [tokenAt?, Text.after?_append]
    simp only [Option.bind_eq_bind, Option.bind_some]
    rw [Text.dropWhile_run hdigits hstop, Text.takeWhile_run hdigits hstop]
    simp [Text.after?, hne]

lemma substitute_tokenOf (h : IsDigits digits) (rest : Text) :
    stash.substitute (tokenOf digits ++ rest) =
      (stash.atNumeral? digits).getD (tokenOf digits) ++ stash.substitute rest := by
  have hat : tokenAt? (tokenOf digits ++ rest) = some (digits, rest) :=
    tokenAt?_eq_some_iff.mpr ⟨rfl, h⟩
  obtain ⟨c, s, hcons⟩ := List.exists_cons_of_ne_nil
    (show tokenOf digits ++ rest ≠ [] by simp [tokenOf])
  rw [hcons] at hat ⊢
  rw [substitute]
  split
  · next digits' rest' hfound =>
    obtain ⟨rfl, rfl⟩ : digits = digits' ∧ rest = rest' := by simpa [hat] using hfound
    rfl
  · next hnone => simp [hat] at hnone

lemma substitute_cons (h : tokenAt? (c :: s) = none) :
    stash.substitute (c :: s) = c :: stash.substitute s := by
  rw [substitute]
  split
  · next hsome => simp [h] at hsome
  · rfl

lemma tokenAt?_eq_none_of_ne (h : c ≠ '\x02') (s : Text) : tokenAt? (c :: s) = none := by
  simp [tokenAt?, tokenOpening, Text.after?, Ne.symm h]

lemma isDigits_of_isNumeral (h : digits.IsNumeral) : IsDigits digits :=
  ⟨h.1, fun c hc => isDecimal_of_isDigit (h.2 c hc)⟩

lemma isDigits_decimal (place : ℕ) : IsDigits (Text.decimal place) :=
  isDigits_of_isNumeral (Text.isNumeral_decimal place)

lemma atNumeral?_decimal (h : place ≤ wordBound) :
    stash.atNumeral? (Text.decimal place) = stash.entries[place]? := by
  rw [atNumeral?, Numeral.natural_decimal h]

/-- Which texts name the place of a content: numerals, also with a sign. -/
theorem atNumeral?_eq_some_iff {content : Text} : stash.atNumeral? s = some content ↔
    ∃ numeral : Text, numeral.IsNumeral ∧ (s = numeral ∨ s = '+' :: numeral) ∧
      numeral.number ≤ wordBound ∧ stash.entries[numeral.number]? = some content := by
  unfold atNumeral?
  constructor
  · intro h
    split at h
    · next place hplace =>
      obtain ⟨numeral, hnumeral, hs, rfl, hbound⟩ := Numeral.natural_eq_ok_iff.mp hplace
      exact ⟨numeral, hnumeral, hs, hbound, h⟩
    · simp at h
  · rintro ⟨numeral, hnumeral, hs, hbound, hentry⟩
    rw [Numeral.natural_eq_ok_iff.mpr ⟨numeral, hnumeral, hs, rfl, hbound⟩]
    exact hentry

lemma resolve?_tokenOf (numeral : Text) :
    stash.resolve? (tokenOf numeral) = stash.atNumeral? numeral := by
  have hafter : Text.after? ['\x02'] (tokenOf numeral) =
      some (("wmstash:".toList ++ numeral) ++ [tokenClosing]) := by
    rw [Text.after?_eq_some_iff]
    rfl
  simp only [resolve?, hafter, Option.bind_eq_bind, Option.bind_some, List.getLast?_concat,
    List.dropLast_concat, ↓reduceIte, Text.after?_append]

/-- Only a text between the marks of a token is looked up. -/
theorem exists_of_resolve? {content : Text} (h : stash.resolve? s = some content) :
    ∃ numeral, s = tokenOf numeral ∧ stash.atNumeral? numeral = some content := by
  simp only [resolve?, Option.bind_eq_bind, Option.bind_eq_some_iff] at h
  obtain ⟨marked, hmarked, h⟩ := h
  split_ifs at h with hlast
  · obtain ⟨inner, rfl⟩ := List.getLast?_eq_some_iff.mp hlast
    simp only [List.dropLast_concat, Option.bind_some, Option.bind_eq_some_iff] at h
    obtain ⟨numeral, hnumeral, hcontent⟩ := h
    refine ⟨numeral, ?_, hcontent⟩
    rw [Text.after?_eq_some_iff.mp hmarked, Text.after?_eq_some_iff.mp hnumeral]
    rfl
  · simp only [Option.bind_none, reduceCtorEq] at h

lemma substitute_nil : stash.substitute [] = [] := by rw [substitute]

theorem substitute_token {content : Text} (hbound : place ≤ wordBound)
    (h : stash.entries[place]? = some content) (rest : Text) :
    stash.substitute (token place ++ rest) = content ++ stash.substitute rest := by
  -- The recursion goes on behind the token, so the content itself is not read.
  have htoken : stash.substitute (token place ++ rest) = _ :=
    substitute_tokenOf (isDigits_decimal place) rest
  rw [htoken, atNumeral?_decimal hbound, h, Option.getD_some]

theorem substitute_eq_self (h : '\x02' ∉ s) : stash.substitute s = s := by
  induction s with
  | nil => exact substitute_nil
  | cons c s ih =>
    simp only [List.mem_cons, not_or] at h
    rw [substitute_cons (tokenAt?_eq_none_of_ne (Ne.symm h.1) s), ih h.2]

lemma resolveAll_eq_self (h : '\x02' ∉ s) : stash.resolveAll s = s := by
  rw [resolveAll, substitute_eq_self h, ite_self]

/-- The token of a content in the stash stands for that content and nothing else. The content is
not looked at again, even if it has the form of a token. -/
theorem resolveAll_token {content : Text} (hbound : place ≤ wordBound)
    (h : stash.entries[place]? = some content) : stash.resolveAll (token place) = content := by
  have hne : stash.entries.isEmpty = false := by
    cases hentries : stash.entries with
    | nil => simp [hentries] at h
    | cons first rest => rfl
  have hsub := substitute_token hbound h []
  rw [List.append_nil, substitute_nil, List.append_nil] at hsub
  simp [resolveAll, hne, hsub]

end Stash

end WikiDirectives
