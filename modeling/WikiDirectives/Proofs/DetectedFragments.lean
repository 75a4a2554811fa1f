import Mathlib.Algebra.Group.Nat.Even
import WikiDirectives.Proofs.Segmentation

/-! The arguments of a detected directive. What is written of them breaks the line at most in front, so
that a quote which stays open takes all that is left. -/
namespace WikiDirectives

/-! ## The last value -/

namespace Dict
variable {α : Type} {entries : List (Text × α)} {name : Text} {value : α}

lemma mem_of_lastValue? (h : lastValue? entries name = some value) : (name, value) ∈ entries := by
  obtain ⟨⟨other, _⟩, hfind, rfl⟩ := Option.map_eq_some_iff.mp h
  obtain rfl : other = name := by simpa using List.find?_some hfind
  exact List.mem_reverse.mp (List.mem_of_find?_eq_some hfind)

lemma size_ofList_ne_zero (h : entries ≠ []) : (ofList entries).size ≠ 0 := by
  obtain ⟨⟨name, value⟩, rest, rfl⟩ := List.exists_cons_of_ne_nil h
  intro hsize
  have hnone : (ofList ((name, value) :: rest)).get? name = none := by
    rw [get?, List.eq_nil_of_length_eq_zero hsize]
    rfl
  rw [get?_ofList, lastValue?, Option.map_eq_none_iff, List.find?_eq_none] at hnone
  exact hnone (name, value) (by simp) (by simp)

end Dict

namespace Fragment

/-! ## Escaped quotes -/

/-- How many backslashes a text ends with. What follows an odd number of them is escaped. -/
def backslashesAtEnd (s : Text) : ℕ := (s.reverse.takeWhile (· == '\\')).length

variable {s inner back : Text} {c : Char}

lemma backslashesAtEnd_le (s : Text) : backslashesAtEnd s ≤ s.length := by
  simpa [backslashesAtEnd] using (List.takeWhile_sublist (· == '\\') (l := s.reverse)).length_le

lemma backslashesAtEnd_cons (c : Char) (s : Text) : backslashesAtEnd (c :: s) =
    if backslashesAtEnd s = s.length ∧ c = '\\' then s.length + 1 else backslashesAtEnd s := by
  simp only [backslashesAtEnd, List.reverse_cons, List.takeWhile_append, List.length_reverse]
  by_cases hall : (s.reverse.takeWhile (· == '\\')).length = s.length
  · by_cases hc : c = '\\' <;> simp [hall, hc]
  · simp [hall]

/-- A quote that stays open is followed by no quote but escaped ones. -/
theorem odd_backslashesAtEnd (h : quoted? s = none) (hline : '\n' ∉ s)
    (hs : s = inner ++ '\x27' :: back) : Odd (backslashesAtEnd inner) := by
  rw [Nat.odd_iff]
  fun_induction quoted? s generalizing inner with
  | case1 => simp at hs
  | case2 => simp at h
  | case3 s => simp at hline
  | case4 c s hc ih =>
    rcases inner with _ | ⟨d, _ | ⟨e, inner⟩⟩
    · simp at hs
    · obtain rfl : d = '\\' := by simpa using (congrArg List.head? hs).symm
      rfl
    · obtain ⟨rfl, rfl, htail⟩ : '\\' = d ∧ c = e ∧ s = inner ++ '\x27' :: back := by simpa using hs
      have hodd := ih (Option.map_eq_none_iff.mp h) (fun hmem => hline (by simp [hmem])) htail
      have hle := backslashesAtEnd_le inner
      -- Two more backslashes, or another end.
      rw [backslashesAtEnd_cons, backslashesAtEnd_cons, List.length_cons]
      by_cases hall : backslashesAtEnd inner = inner.length ∧ c = '\\'
      · simp only [hall, and_self, ↓reduceIte]
        omega
      · simp only [hall, and_true, ↓reduceIte]
        rw [if_neg (by omega)]
        exact hodd
  | case5 => cases inner <;> simp at hs
  | case6 c s hquote hpair hlast ih =>
    cases inner with
    | nil =>
      obtain ⟨rfl, -⟩ : c = '\x27' ∧ s = back := by simpa using hs
      exact absurd rfl hquote
    | cons d inner =>
      obtain ⟨rfl, htail⟩ : c = d ∧ s = inner ++ '\x27' :: back := by simpa using hs
      have hescape : c ≠ '\\' := by
        intro hc
        cases s with
        | nil => exact hlast hc rfl
        | cons d s => exact hpair d s hc rfl
      have hodd := ih (Option.map_eq_none_iff.mp h) (fun hmem => hline (by simp [hmem])) htail
      rw [backslashesAtEnd_cons, if_neg (by simp [hescape])]
      exact hodd

/-! ## How texts are written -/

/-- How a text value is written behind its colon, and what can follow it: a closed quote; or a run of
characters other than blanks that begins with no quote, as long as can be; or a quote that stays open,
with no quote in it but escaped ones, and nothing after it. -/
inductive WritesText (content : Text) : (written after : Text) → Prop
  | closed {body after : Text} (hbody : IsBody body) (hcontent : content = unescape body) :
      WritesText content ('\x27' :: body ++ ['\x27']) after
  | bare {after : Text} (hblank : ∀ c ∈ content, isBlank c = false)
      (hquote : content.head? ≠ some '\x27') (hafter : Text.Stops (!isBlank ·) after) :
      WritesText content content after
  | unclosed {line : Text} (hcontent : content = '\x27' :: line)
      (hquotes : ∀ inner back, line = inner ++ '\x27' :: back → Odd (backslashesAtEnd inner)) :
      WritesText content content []

variable {rest content written name : Text} {earlier later : List (Text × ArgValue)}

/-- On one line, a text is written in one of the three ways. -/
theorem Spells.writesText (h : Spells rest (.text content) written) (hline : '\n' ∉ written ++ rest) :
    ∃ body, written = ':' :: body ∧ WritesText content body rest := by
  cases h with
  | quoted hbody => exact ⟨_, rfl, .closed hbody rfl⟩
  | @unclosed line hopen _ hrest =>
    -- The value goes on to the end of its line, and there is no other line.
    obtain rfl : rest = [] := by
      cases rest with
      | nil => rfl
      | cons c rest =>
        obtain rfl : c = '\n' := by simpa using hrest
        simp at hline
    have hnone : quoted? line = none := by
      rw [quoted?_eq_none_iff]
      simpa using hopen
    refine ⟨_, rfl, .unclosed rfl fun inner back heq => odd_backslashesAtEnd hnone ?_ heq⟩
    exact fun hmem => hline (by simp [hmem])
  | bare hquote hrun hrest =>
    refine ⟨_, rfl, .bare hrun (fun hhead => hquote ?_) hrest⟩
    rw [List.head?_append, hhead]
    rfl

/-- Every token of one line that has a text is written in one of the three ways. -/
theorem exists_writesText (hline : '\n' ∉ s)
    (h : tokens s = earlier ++ (name, .text content) :: later) :
    ∃ before written after, s = before ++ (name ++ (':' :: written ++ after)) ∧
      later = tokens after ∧ WritesText content written after := by
  induction s using word_induction generalizing earlier with
  | gap gap hgap => simp [tokens_gap hgap] at h
  | word gap word rest hgap hword hrest ih =>
    rw [tokens_word hgap hword hrest] at h
    obtain ⟨written, hwritten, hspells⟩ := exists_spells rest
    have hlast : '\n' ∉ rest := fun hmem => hline (by simp [hmem])
    cases earlier with
    | nil =>
      obtain ⟨⟨rfl, hvalue⟩, rfl⟩ : (word = name ∧ (value rest).1 = .text content) ∧
        tokens (value rest).2 = later := by simpa using h
      rw [hvalue] at hspells
      obtain ⟨body, rfl, hwrites⟩ := hspells.writesText (hwritten ▸ hlast)
      exact ⟨gap, body, (value rest).2, by rw [← hwritten], rfl, hwrites⟩
    | cons entry earlier =>
      have hbehind : '\n' ∉ (value rest).2 := fun hmem => hlast (hwritten ▸ by simp [hmem])
      obtain ⟨before, body, after, hrestEq, hlater, hwrites⟩ := ih hbehind (List.cons.inj h).2
      refine ⟨gap ++ (word ++ (written ++ before)), body, after, ?_, hlater, hwrites⟩
      rw [hwritten, hrestEq]
      simp

lemma tokens_cons_of_not_word (hc : isWord c = false) (s : Text) : tokens (c :: s) = tokens s := by
  induction s using word_induction with
  | gap gap hgap => rw [tokens_gap hgap, tokens_gap (List.forall_mem_cons.mpr ⟨hc, hgap⟩)]
  | word gap name rest hgap hname hrest _ =>
    rw [tokens_word hgap hname hrest, ← List.cons_append,
      tokens_word (List.forall_mem_cons.mpr ⟨hc, hgap⟩) hname hrest]

lemma exists_text_of_colon (s : Text) : ∃ content, (value (':' :: s)).1 = .text content := by
  obtain ⟨written, hwritten, hspells⟩ := exists_spells (':' :: s)
  cases hvalue : (value (':' :: s)).1 with
  | text content => exact ⟨content, rfl⟩
  | flag =>
    -- A flag has nothing written, and no colon behind it.
    rw [hvalue] at hspells
    cases hspells with
    | flag hcolon =>
      rw [List.nil_append] at hwritten
      rw [← hwritten] at hcolon
      exact absurd rfl hcolon

end Fragment

/-! ## Detected directives -/

namespace Invocation
variable {line raw : Text} {invocation : Invocation}

lemma isFragment_of_detect (h : detect line = some invocation) (hraw : invocation.fragment = some raw) :
    IsFragment raw := by
  have hdetected := detected_detect line
  rw [h] at hdetected
  obtain ⟨pre, args, post, hdec, -, hfragment⟩ := hdetected
  rw [hraw, written] at hfragment
  split_ifs at hfragment with hempty
  obtain rfl := Option.some.inj hfragment
  exact hdec.args_form.resolve_left hempty

/-- The first token of a fragment is its first word, with a text. -/
theorem IsFragment.tokens_eq (h : IsFragment raw) :
    ∃ name content later, Fragment.tokens raw = (name, .text content) :: later := by
  obtain ⟨blank, key, body, rfl, hblank, hkey, -⟩ := h
  obtain ⟨content, hcontent⟩ := Fragment.exists_text_of_colon body
  refine ⟨key, content, Fragment.tokens (Fragment.value (':' :: body)).2, ?_⟩
  rw [Fragment.tokens_cons_of_not_word (isWord_eq_false_of_isBlank hblank),
    ← List.nil_append (key ++ _), Fragment.tokens_word (by simp) hkey (Text.stops_cons.mpr isWord_colon),
    hcontent]

/-- Only the blank in front of a fragment can break the line. -/
lemma IsFragment.exists_cons (h : IsFragment raw) :
    ∃ blank s, raw = blank :: s ∧ isWord blank = false ∧ '\n' ∉ s := by
  obtain ⟨blank, key, body, rfl, hblank, hkey, -, hbody⟩ := h
  refine ⟨blank, _, rfl, isWord_eq_false_of_isBlank hblank, fun hmem => ?_⟩
  have hcases : '\n' ∈ key ∨ '\n' ∈ body := by simpa using hmem
  rcases hcases with hmem | hmem
  · exact absurd (hkey.2 '\n' hmem) (by simp [isWord_newline])
  · exact hbody hmem

/-- The arguments of a detected directive. There are none just if nothing is written of them. Otherwise
the first token has a text, every text among the arguments is that of a token, and every text of a token
is a closed quote, or a run without blanks that begins with no quote, or a quote that stays open: this
takes all that is left, so that no token follows, and has no quote in it but escaped ones. -/
theorem arguments_of_detected (line : Text) (invocation : Invocation)
    (h : detect line = some invocation) :
    (invocation.arguments.size = 0 ↔ invocation.fragment = none) ∧
    ∀ raw, invocation.fragment = some raw →
      (∃ name content later, Fragment.tokens raw = (name, .text content) :: later) ∧
      (∀ name content, invocation.arguments.get? name = some (.text content) →
        ∃ earlier later, Fragment.tokens raw = earlier ++ (name, .text content) :: later) ∧
      ∀ earlier name content later,
        Fragment.tokens raw = earlier ++ (name, .text content) :: later →
        ∃ before written after, raw = before ++ (name ++ (':' :: written ++ after)) ∧
          later = Fragment.tokens after ∧ Fragment.WritesText content written after := by
  refine ⟨⟨fun hsize => ?_, fun hnone => ?_⟩, fun raw hraw => ?_⟩
  · cases hraw : invocation.fragment with
    | none => rfl
    | some raw =>
      obtain ⟨name, content, later, htokens⟩ := (isFragment_of_detect h hraw).tokens_eq
      rw [arguments, hraw] at hsize
      exact absurd hsize (Dict.size_ofList_ne_zero (by simp [htokens]))
  · rw [arguments, hnone]
    rfl
  · have hfragment := isFragment_of_detect h hraw
    refine ⟨hfragment.tokens_eq, fun name content hget => ?_,
      fun earlier name content later htokens => ?_⟩
    · rw [arguments, hraw] at hget
      change (Dict.ofList (Fragment.tokens raw)).get? name = _ at hget
      rw [Dict.get?_ofList] at hget
      exact List.append_of_mem (Dict.mem_of_lastValue? hget)
    · obtain ⟨blank, s, rfl, hblank, hline⟩ := hfragment.exists_cons
      rw [Fragment.tokens_cons_of_not_word hblank] at htokens
      obtain ⟨before, written, after, rfl, hlater, hwrites⟩ :=
        Fragment.exists_writesText hline htokens
      exact ⟨blank :: before, written, after, rfl, hlater, hwrites⟩

/-- A line break before the first name, a closed quote with another quote in it, a flag, and a quote that
stays open because the quote and the bracket behind it are part of its text. -/
theorem arguments_of_detected_openQuote :
    let line : Text := "[box\nk:'x\\'y' f n:'a\\' ]z]".toList
    let raw : Text := "\nk:'x\\'y' f n:'a\\' ]z".toList
    let value : Text := "'a\\' ]z".toList
    let earlier := [("k".toList, ArgValue.text "x'y".toList), ("f".toList, .flag)]
    detect line = some ⟨"box".toList, some raw⟩ ∧
      Fragment.tokens raw = earlier ++ [("n".toList, .text value)] ∧
      arguments ⟨"box".toList, some raw⟩ ≠ .empty ∧
      ∃ before written after, raw = before ++ ("n".toList ++ (':' :: written ++ after)) ∧
        [] = Fragment.tokens after ∧ Fragment.WritesText value written after := by
  intro line raw value earlier
  have hdetect : detect line = some ⟨"box".toList, some raw⟩ := by decide +kernel
  have htokens : Fragment.tokens raw = earlier ++ [("n".toList, .text value)] := by decide +kernel
  obtain ⟨hsize, htexts⟩ := arguments_of_detected line ⟨"box".toList, some raw⟩ hdetect
  obtain ⟨-, -, hwritten⟩ := htexts raw rfl
  refine ⟨hdetect, htokens, fun hempty => ?_, hwritten earlier "n".toList value [] htokens⟩
  exact absurd (hsize.mp (by rw [hempty]; rfl)) (by simp)

end Invocation

end WikiDirectives
