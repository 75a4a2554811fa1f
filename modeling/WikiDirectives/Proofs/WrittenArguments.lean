import WikiDirectives.Proofs.Detection

/-! Written arguments are read back: every list of named values has a written form, alone and inside
a directive, from which the reader gets exactly these values. -/
namespace WikiDirectives

/-! ## Maps from lists -/
namespace Dict
variable {α : Type}

/-- The value of the last entry under a name. -/
def lastValue? (entries : List (Text × α)) (name : Text) : Option α :=
  (entries.reverse.find? fun entry => entry.1 = name).map (·.2)

theorem get?_foldl_insert (d : Dict α) (entries : List (Text × α)) (name : Text) :
    (entries.foldl (fun d entry => d.insert entry.1 entry.2) d).get? name =
      (lastValue? entries name).or (d.get? name) := by
  induction entries generalizing d with
  | nil => simp [lastValue?]
  | cons entry entries ih =>
    rw [List.foldl_cons, ih, get?_insert]
    simp only [lastValue?, List.reverse_cons, List.find?_append, Option.map_or, Option.or_assoc]
    congr 1
    by_cases h : name = entry.1
    · simp [h]
    · simp [h, Ne.symm h]

theorem get?_ofList (entries : List (Text × α)) (name : Text) :
    (ofList entries).get? name = lastValue? entries name := by
  rw [ofList, get?_foldl_insert, get?_empty, Option.or_none]

end Dict

namespace Fragment

/-! ## Values -/

/-- A text with a backslash before each quote and each backslash. -/
def escaped (s : Text) : Text :=
  s.flatMap fun c => if c = '\x27' ∨ c = '\\' then ['\\', c] else [c]

lemma escaped_cons (c : Char) (s : Text) :
    escaped (c :: s) = (if c = '\x27' ∨ c = '\\' then ['\\', c] else [c]) ++ escaped s :=
  List.flatMap_cons

lemma quote_append (s rest : Text) : quote s ++ rest = '\x27' :: (escaped s ++ '\x27' :: rest) := by
  simp [quote, escaped]

lemma unescape_cons {c : Char} (h : c ≠ '\\') (s : Text) : unescape (c :: s) = c :: unescape s := by
  rw [unescape.eq_def]
  split <;> simp_all

lemma quoted?_cons {c : Char} (hquote : c ≠ '\x27') (hescape : c ≠ '\\') (s : Text) :
    quoted? (c :: s) = (quoted? s).map fun (body, rest) => (c :: body, rest) := by
  rw [quoted?.eq_def]
  split <;> simp_all

theorem unescape_escaped (s : Text) : unescape (escaped s) = s := by
  induction s with
  | nil => rfl
  | cons c s ih =>
    rw [escaped_cons]
    split_ifs with hc
    · simp [unescape, ih]
    · rw [not_or] at hc
      rw [List.singleton_append, unescape_cons hc.2, ih]

/-- Escaped, a text cannot close its quote, and the quote behind it does. -/
theorem quoted?_escaped (s rest : Text) :
    quoted? (escaped s ++ '\x27' :: rest) = some (escaped s, rest) := by
  induction s with
  | nil => rfl
  | cons c s ih =>
    rw [escaped_cons]
    split_ifs with hc
    · have hline : c ≠ '\n' := by rcases hc with rfl | rfl <;> decide
      simp [quoted?, hline, ih]
    · rw [not_or] at hc
      rw [List.cons_append, List.nil_append, List.cons_append, quoted?_cons hc.1 hc.2, ih]
      rfl

theorem value_quote (content rest : Text) :
    value (':' :: (quote content ++ rest)) = (.text content, rest) := by
  rw [quote_append]
  simp [value, quoted?_escaped, unescape_escaped]

lemma value_eq_flag {rest : Text} (h : rest.head? ≠ some ':') : value rest = (.flag, rest) := by
  unfold value
  split <;> simp_all

/-! ## Arguments -/

lemma tokens_nil : tokens [] = [] := by
  rw [tokens]
  rfl

/-- The first token of a fragment: a word behind characters of no word, and the value after it. -/
theorem tokens_word {gap name rest : Text} (hgap : ∀ c ∈ gap, isWord c = false) (hname : name.IsWord)
    (hrest : Text.Stops isWord rest) :
    tokens (gap ++ (name ++ rest)) = (name, (value rest).1) :: tokens (value rest).2 := by
  obtain ⟨c, word, rfl⟩ := List.exists_cons_of_ne_nil hname.1
  have hdrop : (gap ++ (c :: word ++ rest)).dropWhile (!isWord ·) = c :: (word ++ rest) := by
    refine Text.dropWhile_run (fun d hd => by simp [hgap d hd]) (Text.stops_cons.mpr ?_)
    simp [hname.2 c (by simp)]
  have htake : (c :: (word ++ rest)).takeWhile isWord = c :: word :=
    Text.takeWhile_run hname.2 hrest
  have hvalue : (word ++ rest).dropWhile isWord = rest :=
    Text.dropWhile_run (fun d hd => hname.2 d (List.mem_cons_of_mem c hd)) hrest
  rw [tokens]
  split
  · next hnil => exact absurd (hdrop.symm.trans hnil) (List.cons_ne_nil _ _)
  · next d word' hcons =>
    obtain ⟨rfl, rfl⟩ := List.cons.inj (hdrop.symm.trans hcons)
    rw [htake, hvalue]

/-- All entries, one written after the other. -/
def writeAll (entries : List (Text × ArgValue)) : Text := entries.flatMap write

lemma writeAll_head? (entries : List (Text × ArgValue)) :
    ∀ c ∈ (writeAll entries).head?, c = ' ' := by
  cases entries with
  | nil => simp [writeAll]
  | cons entry entries =>
    obtain ⟨name, _ | content⟩ := entry <;> simp [writeAll, write]

lemma writeAll_eq_nil_iff {entries : List (Text × ArgValue)} : writeAll entries = [] ↔ entries = [] := by
  cases entries with
  | nil => simp [writeAll]
  | cons entry entries =>
    obtain ⟨name, _ | content⟩ := entry <;> simp [writeAll, write]

theorem tokens_writeAll {entries : List (Text × ArgValue)}
    (hnames : ∀ entry ∈ entries, entry.1.IsWord) : tokens (writeAll entries) = entries := by
  induction entries with
  | nil => exact tokens_nil
  | cons entry entries ih =>
    have ih := ih fun other hother => hnames other (List.mem_cons_of_mem _ hother)
    have hname := hnames entry (by simp)
    have hgap : ∀ c ∈ [' '], isWord c = false := by simp [isWord_space]
    obtain ⟨name, _ | content⟩ := entry
    · have hrest : Text.Stops isWord (writeAll entries) := fun c hc => by
        rw [writeAll_head? entries c hc, isWord_space]
      have hflag : value (writeAll entries) = (.flag, writeAll entries) := by
        refine value_eq_flag fun hcolon => ?_
        exact absurd (writeAll_head? entries _ hcolon) (by decide)
      have h := tokens_word hgap hname hrest
      rw [hflag, ih] at h
      simpa [writeAll, write] using h
    · have hrest : Text.Stops isWord (':' :: (quote content ++ writeAll entries)) :=
        Text.stops_cons.mpr isWord_colon
      have h := tokens_word hgap hname hrest
      rw [value_quote, ih] at h
      simpa [writeAll, write] using h

lemma arguments_writeAll {entries : List (Text × ArgValue)}
    (hnames : ∀ entry ∈ entries, entry.1.IsWord) :
    arguments (writeAll entries) = Dict.ofList entries := by
  rw [arguments, tokens_writeAll hnames]

/-! ## Inside a directive -/

lemma newline_not_mem_escaped {s : Text} (h : '\n' ∉ s) : '\n' ∉ escaped s := by
  intro hmem
  obtain ⟨c, hc, hmem⟩ := List.mem_flatMap.mp hmem
  have hne : '\n' ≠ c := fun heq => h (heq ▸ hc)
  split_ifs at hmem <;> simp [hne] at hmem

theorem newline_not_mem_writeAll {entries : List (Text × ArgValue)}
    (hnames : ∀ entry ∈ entries, entry.1.IsWord)
    (hvalues : ∀ name content, (name, .text content) ∈ entries → '\n' ∉ content) :
    '\n' ∉ writeAll entries := by
  intro hmem
  obtain ⟨⟨name, value⟩, hentry, hmem⟩ := List.mem_flatMap.mp hmem
  have hname : '\n' ∉ name := fun hin => by
    simpa [isWord_newline] using (hnames _ hentry).2 _ hin
  cases value with
  | flag => simp [write, hname] at hmem
  | text content =>
    have hcontent := newline_not_mem_escaped (hvalues name content hentry)
    rw [write, ← List.append_nil (quote content), quote_append] at hmem
    simp [hname, hcontent] at hmem

end Fragment

namespace Invocation
open Fragment

theorem detect_append {pre : Text} (hpre : '[' ∉ pre) (s : Text) : detect (pre ++ s) = detect s := by
  induction pre with
  | nil => rfl
  | cons c pre ih =>
    simp only [List.mem_cons, not_or] at hpre
    rw [List.cons_append, detect, if_neg (Ne.symm hpre.1), ih hpre.2]

lemma arguments_eq (name args : Text) :
    arguments ⟨name, written args⟩ = Fragment.arguments args := by
  unfold written
  split_ifs with hnil
  · rw [hnil, Fragment.arguments, tokens_nil]
    rfl
  · rfl

/-- A directive with written arguments is found as it was written. -/
theorem detect_written {entries : List (Text × ArgValue)} {name pre post : Text}
    (hnames : ∀ entry ∈ entries, entry.1.IsWord) (hname : name.IsWord) (hpre : '[' ∉ pre)
    (hpost : ']' ∉ post)
    (hentries : entries = [] ∨ (∃ key content rest, entries = (key, .text content) :: rest) ∧
      ∀ key content, (key, .text content) ∈ entries → '\n' ∉ content) :
    detect (pre ++ '[' :: (name ++ (writeAll entries ++ ']' :: post))) =
      some ⟨name, written (writeAll entries)⟩ := by
  rw [detect_append hpre, detect, if_pos rfl]
  rcases hentries with rfl | ⟨⟨key, content, rest, rfl⟩, hvalues⟩
  · rw [writeAll, List.flatMap_nil, List.nil_append, at?_closing hname]
    rfl
  · have hline := newline_not_mem_writeAll hnames hvalues
    have hwritten : writeAll ((key, .text content) :: rest) =
        ' ' :: (key ++ ':' :: (quote content ++ writeAll rest)) := by
      simp [writeAll, write]
    rw [hwritten] at hline ⊢
    have hbody : '\n' ∉ quote content ++ writeAll rest := fun hmem => hline (by simp [hmem])
    have hne : quote content ++ writeAll rest ≠ [] := by simp [quote_append]
    have hkey : key.IsWord := hnames (key, .text content) (by simp)
    rw [List.cons_append, List.append_assoc, List.cons_append, at?_blank hname isBlank_space,
      fragmentAt?_colon hkey, beforeClosing?_append hbody hpost, Option.bind_some,
      if_neg hne, written_cons]
    rfl

/-- Every list of named values can be written, and is read back exactly, the last value under a name
counting. Alone its texts may hold any characters. In a directive, behind a text without opening
bracket and before one without closing bracket, no text may break the line, and the first value must
be a text. -/
theorem arguments_of_written (entries : List (Text × ArgValue))
    (hnames : ∀ entry ∈ entries, entry.1.IsWord) :
    (∀ key, (Fragment.arguments (writeAll entries)).get? key = Dict.lastValue? entries key) ∧
      ∀ name pre post : Text, name.IsWord → '[' ∉ pre → ']' ∉ post →
        (entries = [] ∨ (∃ key content rest, entries = (key, .text content) :: rest) ∧
          ∀ key content, (key, .text content) ∈ entries → '\n' ∉ content) →
        ∃ invocation,
          detect (pre ++ '[' :: (name ++ (writeAll entries ++ ']' :: post))) = some invocation ∧
          invocation.name = name ∧
          invocation.fragment = (if entries = [] then none else some (writeAll entries)) ∧
          invocation.arguments = Fragment.arguments (writeAll entries) := by
  refine ⟨fun key => ?_, fun name pre post hname hpre hpost hentries => ?_⟩
  · rw [arguments_writeAll hnames, Dict.get?_ofList]
  · refine ⟨_, detect_written hnames hname hpre hpost hentries, rfl, ?_, arguments_eq _ _⟩
    simp only [written, writeAll_eq_nil_iff]

/-- Two values under one name, the first full of quotes, backslashes and brackets. -/
theorem arguments_of_written_adversarial :
    let entries : List (Text × ArgValue) :=
      [("t".toList, .text "]\\' t:'x' [\\".toList), ("wide".toList, .flag), ("t".toList, .text [])]
    (∀ entry ∈ entries, entry.1.IsWord) ∧
      (Fragment.arguments (writeAll entries)).get? "t".toList = some (.text []) ∧
      ∃ invocation,
        detect ("a] ".toList ++ '[' :: ("box".toList ++ (writeAll entries ++ ']' :: " [b".toList))) =
          some invocation ∧
        invocation.name = "box".toList ∧ invocation.fragment = some (writeAll entries) ∧
        invocation.arguments = Fragment.arguments (writeAll entries) := by
  intro entries
  have hnames : ∀ entry ∈ entries, entry.1.IsWord := by decide
  have hvalues : ∀ key content, (key, .text content) ∈ entries → '\n' ∉ content := by
    intro key content hmem
    simp only [entries, List.mem_cons, List.not_mem_nil, or_false, Prod.mk.injEq, reduceCtorEq,
      and_false, false_or, ArgValue.text.injEq] at hmem
    rcases hmem with ⟨-, rfl⟩ | ⟨-, rfl⟩ <;> decide
  obtain ⟨hlast, hdetect⟩ := arguments_of_written entries hnames
  refine ⟨hnames, hlast _, ?_⟩
  exact hdetect _ _ _ (by decide) (by decide) (by decide) (.inr ⟨⟨_, _, _, rfl⟩, hvalues⟩)

end Invocation

end WikiDirectives
