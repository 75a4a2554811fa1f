import WikiDirectives.Invocation
import WikiDirectives.Proofs.Characters

/-! Directives are detected by their grammar: of all places where a line reads as a directive the
first one counts, and there the longest arguments. -/
namespace WikiDirectives

namespace Invocation

/-! ## The end of the arguments -/

variable {s body post : Text}

lemma takeWhile_closed (hbody : '\n' ∉ body) (post : Text) :
    (body ++ ']' :: post).takeWhile (· != '\n') = body ++ ']' :: post.takeWhile (· != '\n') := by
  rw [List.takeWhile_append_of_pos]
  · rfl
  · intro c hc
    simpa using ne_of_mem_of_not_mem hc hbody

lemma beforeClosing?_eq_none (h : beforeClosing? s = none) (hbody : '\n' ∉ body) :
    s ≠ body ++ ']' :: post := by
  rintro rfl
  rw [beforeClosing?_eq, Option.map_eq_none_iff, Text.splitLast?_eq_none_iff,
    takeWhile_closed hbody] at h
  simp at h

/-- What stands before the last closing bracket of a line is longer than what stands before any
other. -/
theorem beforeClosing?_eq_some (h : beforeClosing? s = some body) :
    (∃ post, s = body ++ ']' :: post) ∧ '\n' ∉ body ∧
      ∀ body' post', '\n' ∉ body' → s = body' ++ ']' :: post' → body'.length ≤ body.length := by
  rw [beforeClosing?_eq, Option.map_eq_some_iff] at h
  obtain ⟨⟨front, back⟩, hsplit, rfl⟩ := h
  obtain ⟨hline, hback⟩ := Text.eq_append_of_splitLast? hsplit
  refine ⟨⟨back ++ s.dropWhile (· != '\n'), ?_⟩, fun hmem => ?_, fun body' post' hbody' hs => ?_⟩
  · calc
      s = s.takeWhile (· != '\n') ++ s.dropWhile (· != '\n') :=
        List.takeWhile_append_dropWhile.symm
      _ = front ++ ']' :: (back ++ s.dropWhile (· != '\n')) := by rw [hline]; simp
  · have hfirst : '\n' ∈ s.takeWhile (· != '\n') := by
      rw [hline]
      exact List.mem_append_left _ hmem
    simpa using List.mem_takeWhile_imp hfirst
  · rw [hs, takeWhile_closed hbody'] at hline
    exact Text.length_le_of_not_mem hback hline.symm

lemma beforeClosing?_append (hbody : '\n' ∉ body) (hpost : ']' ∉ post) :
    beforeClosing? (body ++ ']' :: post) = some body := by
  have hline : ']' ∉ post.takeWhile (· != '\n') := fun h =>
    hpost ((List.takeWhile_sublist _).subset h)
  rw [beforeClosing?_eq, takeWhile_closed hbody, Text.splitLast?_append hline]
  rfl

/-! ## Reading at a bracket -/

variable {name key rest : Text} {c blank : Char} {invocation : Invocation}

lemma exists_word_of_takeWhile (h : s.takeWhile isWord ≠ []) :
    ∃ name rest, s = name ++ rest ∧ name.IsWord ∧ Text.Stops isWord rest :=
  ⟨s.takeWhile isWord, s.dropWhile isWord, List.takeWhile_append_dropWhile.symm,
    ⟨h, fun _ hc => List.mem_takeWhile_imp hc⟩, Text.stops_dropWhile isWord s⟩

lemma fragmentAt?_word (hkey : key.IsWord) (hrest : Text.Stops isWord rest) :
    fragmentAt? (key ++ rest) =
      (Text.after? [':'] rest).bind fun rest => (beforeClosing? rest).bind fun body =>
        if body = [] then none else some (key ++ ':' :: body) := by
  unfold fragmentAt?
  simp only [Text.takeWhile_run hkey.2 hrest, Text.dropWhile_run hkey.2 hrest, Option.bind_eq_bind]
  simp [hkey.1]

lemma fragmentAt?_colon (hkey : key.IsWord) (rest : Text) :
    fragmentAt? (key ++ ':' :: rest) = (beforeClosing? rest).bind fun body =>
      if body = [] then none else some (key ++ ':' :: body) := by
  rw [fragmentAt?_word hkey (Text.stops_cons.mpr isWord_colon)]
  rfl

lemma at?_word (hname : name.IsWord) (hc : isWord c = false) (rest : Text) :
    at? (name ++ c :: rest) =
      if c = ']' then some ⟨name, none⟩
      else if isBlank c then (fragmentAt? rest).map fun fragment => ⟨name, some (c :: fragment)⟩
      else none := by
  have hstop : Text.Stops isWord (c :: rest) := Text.stops_cons.mpr hc
  unfold at?
  simp only [Text.takeWhile_run hname.2 hstop, Text.dropWhile_run hname.2 hstop]
  simp [hname.1]

lemma at?_closing (hname : name.IsWord) (post : Text) :
    at? (name ++ ']' :: post) = some ⟨name, none⟩ := by
  rw [at?_word hname isWord_closing, if_pos rfl]

lemma at?_blank (hname : name.IsWord) (hblank : isBlank blank = true) (rest : Text) :
    at? (name ++ blank :: rest) =
      (fragmentAt? rest).map fun fragment => ⟨name, some (blank :: fragment)⟩ := by
  have hne : blank ≠ ']' := by
    rintro rfl
    simp [isBlank_closing] at hblank
  rw [at?_word hname (isWord_eq_false_of_isBlank hblank), if_neg hne, if_pos hblank]

/-- The two forms of a directive behind its opening bracket. -/
theorem at?_cases (h : at? s = some invocation) :
    invocation.name.IsWord ∧
      ((invocation.fragment = none ∧ ∃ post, s = invocation.name ++ ']' :: post) ∨
        ∃ blank rest fragment, isBlank blank = true ∧ s = invocation.name ++ blank :: rest ∧
          fragmentAt? rest = some fragment ∧ invocation.fragment = some (blank :: fragment)) := by
  have hname : s.takeWhile isWord ≠ [] := by
    intro hnil
    simp [at?, hnil] at h
  obtain ⟨name, rest, rfl, hword, hstop⟩ := exists_word_of_takeWhile hname
  cases rest with
  | nil =>
    unfold at? at h
    simp only [Text.dropWhile_run hword.2 hstop, ite_self, reduceCtorEq] at h
  | cons c rest =>
    rw [at?_word hword (Text.stops_cons.mp hstop)] at h
    split_ifs at h with hc hblank
    · obtain rfl := Option.some.inj h
      subst hc
      exact ⟨hword, .inl ⟨rfl, rest, rfl⟩⟩
    · obtain ⟨fragment, hfragment, rfl⟩ := Option.map_eq_some_iff.mp h
      exact ⟨hword, .inr ⟨c, rest, fragment, hblank, rfl, hfragment, rfl⟩⟩

theorem fragmentAt?_cases {fragment : Text} (h : fragmentAt? s = some fragment) :
    ∃ key rest body, s = key ++ ':' :: rest ∧ key.IsWord ∧ beforeClosing? rest = some body ∧
      body ≠ [] ∧ fragment = key ++ ':' :: body := by
  have hkey : s.takeWhile isWord ≠ [] := by
    intro hnil
    simp [fragmentAt?, hnil] at h
  obtain ⟨key, rest, rfl, hword, hstop⟩ := exists_word_of_takeWhile hkey
  rw [fragmentAt?_word hword hstop] at h
  simp only [Option.bind_eq_some_iff] at h
  obtain ⟨rest', hcolon, body, hbody, hfragment⟩ := h
  split_ifs at hfragment with hne
  exact ⟨key, rest', body, by rw [Text.after?_eq_some_iff.mp hcolon]; rfl, hword, hbody, hne,
    (Option.some.inj hfragment).symm⟩

/-! ## The grammar -/

/-- Written arguments: a blank, a word, a colon, and one or more characters of the same line. -/
def IsFragment (args : Text) : Prop :=
  ∃ (blank : Char) (key body : Text), args = blank :: (key ++ ':' :: body) ∧
    isBlank blank = true ∧ key.IsWord ∧ body ≠ [] ∧ '\n' ∉ body

/-- A line reads as a directive behind `pre`: a name and maybe arguments, in brackets. -/
structure Decomposes (line pre name args post : Text) : Prop where
  line_eq : line = pre ++ '[' :: (name ++ (args ++ ']' :: post))
  isWord_name : name.IsWord
  args_form : args = [] ∨ IsFragment args

/-- No directive of the line begins further left, nor has one that begins at the same bracket
longer arguments. -/
def Foremost (line pre args : Text) : Prop :=
  ∀ pre' name' args' post', Decomposes line pre' name' args' post' →
    pre.length ≤ pre'.length ∧ (pre'.length = pre.length → args'.length ≤ args.length)

variable {line pre args : Text}

lemma stops_args (h : args = [] ∨ IsFragment args) (post : Text) :
    Text.Stops isWord (args ++ ']' :: post) := by
  rcases h with rfl | ⟨blank, key, body, rfl, hblank, -⟩
  · exact Text.stops_cons.mpr isWord_closing
  · exact Text.stops_cons.mpr (isWord_eq_false_of_isBlank hblank)

lemma not_decomposes_nil : ¬ Decomposes [] pre name args post := by
  intro h
  have hnil := h.line_eq
  simp at hnil

lemma decomposes_cons_iff : Decomposes (c :: s) (c :: pre) name args post ↔
    Decomposes s pre name args post :=
  ⟨fun h => ⟨by simpa using h.line_eq, h.isWord_name, h.args_form⟩,
    fun h => ⟨by simpa using h.line_eq, h.isWord_name, h.args_form⟩⟩

theorem Decomposes.cons_cases (h : Decomposes (c :: s) pre name args post) :
    (pre = [] ∧ c = '[') ∨ ∃ pre', pre = c :: pre' ∧ Decomposes s pre' name args post := by
  cases pre with
  | nil => exact .inl ⟨rfl, by simpa using congrArg List.head? h.line_eq⟩
  | cons d pre =>
    obtain rfl : c = d := by simpa using congrArg List.head? h.line_eq
    exact .inr ⟨pre, rfl, decomposes_cons_iff.mp h⟩

/-- Arguments as an invocation has them: none if nothing is written. -/
def written (args : Text) : Option Text := if args = [] then none else some args

lemma written_cons (c : Char) (s : Text) : written (c :: s) = some (c :: s) :=
  if_neg (List.cons_ne_nil c s)

lemma written_injective : Function.Injective written := by
  intro args args' h
  unfold written at h
  split_ifs at h with hnil hnil' hnil'
  · rw [hnil, hnil']
  · exact Option.some.inj h

/-- Where a fragment can be read, one that is at least as long is. -/
theorem fragmentAt?_of_form (hkey : key.IsWord) (hne : body ≠ []) (hbody : '\n' ∉ body)
    (post : Text) :
    ∃ body', fragmentAt? (key ++ ':' :: (body ++ ']' :: post)) = some (key ++ ':' :: body') ∧
      body.length ≤ body'.length := by
  rw [fragmentAt?_colon hkey]
  cases hclosing : beforeClosing? (body ++ ']' :: post) with
  | none => exact absurd rfl (beforeClosing?_eq_none hclosing hbody)
  | some body' =>
    have hlength := (beforeClosing?_eq_some hclosing).2.2 body post hbody rfl
    have hne' : body' ≠ [] := by
      rintro rfl
      exact hne (List.eq_nil_of_length_eq_zero (Nat.le_zero.mp hlength))
    exact ⟨body', by simp [hne'], hlength⟩

/-- Where a directive can be read, one with arguments at least as long is. -/
theorem at?_of_decomposes (h : Decomposes ('[' :: s) [] name args post) :
    ∃ args', at? s = some ⟨name, written args'⟩ ∧ args.length ≤ args'.length := by
  obtain rfl : s = name ++ (args ++ ']' :: post) := by simpa using h.line_eq
  rcases h.args_form with rfl | ⟨blank, key, body, rfl, hblank, hkey, hne, hbody⟩
  · exact ⟨[], at?_closing h.isWord_name post, le_refl _⟩
  · obtain ⟨body', hfragment, hlength⟩ := fragmentAt?_of_form hkey hne hbody post
    refine ⟨blank :: (key ++ ':' :: body'), ?_, by simpa using hlength⟩
    rw [List.cons_append, at?_blank h.isWord_name hblank, List.append_assoc, List.cons_append,
      hfragment, written_cons]
    rfl

theorem decomposes_of_at? (h : at? s = some invocation) :
    ∃ args post, Decomposes ('[' :: s) [] invocation.name args post ∧
      invocation.fragment = written args := by
  obtain ⟨hname, ⟨hnone, post, rfl⟩ | ⟨blank, rest, fragment, hblank, rfl, hrest, hsome⟩⟩ :=
    at?_cases h
  · exact ⟨[], post, ⟨rfl, hname, .inl rfl⟩, hnone⟩
  · obtain ⟨key, rest, body, rfl, hkey, hclosing, hne, rfl⟩ := fragmentAt?_cases hrest
    obtain ⟨⟨post, rfl⟩, hbody, -⟩ := beforeClosing?_eq_some hclosing
    refine ⟨blank :: (key ++ ':' :: body), post, ⟨?_, hname, .inr ?_⟩, ?_⟩
    · simp
    · exact ⟨blank, key, body, rfl, hblank, hkey, hne, hbody⟩
    · rw [hsome, written_cons]

/-! ## The first directive -/

/-- A directive is a foremost one of a line, or there is none. -/
def Detected (line : Text) : Option Invocation → Prop
  | none => ∀ pre name args post, ¬ Decomposes line pre name args post
  | some invocation => ∃ pre args post, Decomposes line pre invocation.name args post ∧
      Foremost line pre args ∧ invocation.fragment = written args

/-- A failed attempt at the first character hides no later directive. -/
theorem Detected.cons {found : Option Invocation} (h : Detected s found)
    (hnot : ∀ name args post, ¬ Decomposes (c :: s) [] name args post) :
    Detected (c :: s) found := by
  have hlater : ∀ {pre name args post}, Decomposes (c :: s) pre name args post →
      ∃ pre', pre = c :: pre' ∧ Decomposes s pre' name args post := by
    intro pre name args post hdec
    rcases hdec.cons_cases with ⟨rfl, -⟩ | hlater
    · exact absurd hdec (hnot name args post)
    · exact hlater
  cases found with
  | none =>
    intro pre name args post hdec
    obtain ⟨pre', -, hdec'⟩ := hlater hdec
    exact h pre' name args post hdec'
  | some invocation =>
    obtain ⟨pre, args, post, hdec, hforemost, hfragment⟩ := h
    refine ⟨c :: pre, args, post, decomposes_cons_iff.mpr hdec, ?_, hfragment⟩
    intro pre' name' args' post' hdec'
    obtain ⟨pre'', rfl, hdec''⟩ := hlater hdec'
    simpa using hforemost pre'' name' args' post' hdec''

theorem detected_at? (h : at? s = some invocation) : Detected ('[' :: s) (some invocation) := by
  obtain ⟨args, post, hdec, hfragment⟩ := decomposes_of_at? h
  refine ⟨[], args, post, hdec, fun pre' name' args' post' hdec' => ⟨Nat.zero_le _, ?_⟩, hfragment⟩
  intro hlength
  obtain rfl := List.eq_nil_of_length_eq_zero hlength
  obtain ⟨longest, hat, hle⟩ := at?_of_decomposes hdec'
  have hsame : invocation = ⟨name', written longest⟩ := Option.some.inj (h.symm.trans hat)
  have hargs : args = longest := written_injective (by rw [← hfragment, hsame])
  exact hargs ▸ hle

theorem detected_detect (line : Text) : Detected line (detect line) := by
  induction line with
  | nil => exact fun _ _ _ _ => not_decomposes_nil
  | cons c s ih =>
    rw [detect]
    split_ifs with hc
    · subst hc
      cases hat : at? s with
      | some invocation => exact detected_at? hat
      | none =>
        -- The reader is complete at a bracket: where it fails, nothing decomposes.
        refine ih.cons fun name args post hdec => ?_
        obtain ⟨args', hsome, -⟩ := at?_of_decomposes hdec
        simp [hat] at hsome
    · refine ih.cons fun name args post hdec => ?_
      rcases hdec.cons_cases with ⟨-, hopening⟩ | ⟨pre', hpre, -⟩
      · exact hc hopening
      · simp at hpre

theorem Foremost.unique {pre' name' args' post' : Text} (hforemost : Foremost line pre args)
    (hforemost' : Foremost line pre' args') (h : Decomposes line pre name args post)
    (h' : Decomposes line pre' name' args' post') : name = name' ∧ args = args' := by
  obtain ⟨hpre, hargs⟩ := hforemost _ _ _ _ h'
  obtain ⟨hpre', hargs'⟩ := hforemost' _ _ _ _ h
  have hlength : pre.length = pre'.length := le_antisymm hpre hpre'
  have hline := h.line_eq.symm.trans h'.line_eq
  obtain ⟨-, hrest⟩ := List.append_inj hline hlength
  -- At one bracket both names are the whole word behind it, as no arguments go on with the word.
  obtain ⟨hname, hrest⟩ := Text.run_unique h.isWord_name.2 h'.isWord_name.2
    (stops_args h.args_form post) (stops_args h'.args_form post') (List.cons.inj hrest).2
  have hsame : args.length = args'.length := le_antisymm (hargs' hlength) (hargs hlength.symm)
  exact ⟨hname, (List.append_inj hrest hsame).1⟩

/-- Detection accepts exactly the grammar and takes the first directive with the longest arguments:
none is found if the line does not decompose, and one is found exactly if it is the name and the
arguments of a foremost decomposition. -/
theorem detect_foremost (line : Text) :
    (detect line = none ↔ ¬ ∃ pre name args post, Decomposes line pre name args post) ∧
      ∀ invocation, detect line = some invocation ↔
        ∃ pre args post, Decomposes line pre invocation.name args post ∧
          Foremost line pre args ∧
          invocation.fragment = if args = [] then none else some args := by
  have hdetected := detected_detect line
  cases hfound : detect line with
  | none =>
    rw [hfound] at hdetected
    constructor
    · simpa [Detected] using hdetected
    · intro invocation
      constructor
      · simp
      · rintro ⟨pre, args, post, h, -⟩
        exact absurd h (hdetected pre invocation.name args post)
  | some found =>
    rw [hfound] at hdetected
    obtain ⟨pre, args, post, hdec, hforemost, hfragment⟩ := hdetected
    refine ⟨⟨by simp, fun h => absurd ⟨pre, found.name, args, post, hdec⟩ h⟩,
      fun invocation => ⟨?_, ?_⟩⟩
    · intro h
      obtain rfl := Option.some.inj h
      exact ⟨pre, args, post, hdec, hforemost, hfragment⟩
    · rintro ⟨pre', args', post', hdec', hforemost', hfragment'⟩
      obtain ⟨hname, rfl⟩ := hforemost.unique hforemost' hdec hdec'
      have hsame : found.fragment = invocation.fragment := hfragment.trans hfragment'.symm
      rw [Option.some.injEq]
      cases found
      cases invocation
      simp_all

example : detect "[[b c:[d] e] f]".toList = some ⟨"b".toList, some " c:[d] e] f".toList⟩ := rfl

end Invocation

end WikiDirectives
