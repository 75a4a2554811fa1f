import Mathlib.Data.List.Forall2
import WikiDirectives.Proofs.FailedRuns
import WikiDirectives.Proofs.Resolution
import WikiDirectives.Proofs.WrittenArguments

/-! Expanding a page again. What the built-in handlers leave in a page calls no handler, and the lines of
a page are read again as they were written, so that the page with its tokens stays as it is. -/
namespace WikiDirectives

/-! ## Lines written with their endings -/

namespace Text

/-- The lines one after the other, each with the ending behind it. -/
def ended (ending : LineEnding) (lines : List Text) : Text := lines.flatMap (· ++ ending.text)

/-- A line that is read again as it was when the ending stands behind it. -/
structure Fits (ending : LineEnding) (line : Text) : Prop where
  noNewline : '\n' ∉ line
  noReturn : ending = .lf → line.getLast? ≠ some '\r'

variable {ending : LineEnding} {line s last : Text} {c : Char} {front : List Text}

lemma ended_cons (ending : LineEnding) (line : Text) (front : List Text) (last : Text) :
    ended ending (line :: front) ++ last =
      line ++ (ending.text ++ (ended ending front ++ last)) := by
  simp [ended]

lemma fits_of_not_mem (hnewline : '\n' ∉ line) (hreturn : '\r' ∉ line) : Fits ending line :=
  ⟨hnewline, fun _ hlast => hreturn (List.mem_of_getLast? hlast)⟩

/-- The characters of a line that fits make no ending, neither alone nor with what follows. -/
theorem Fits.of_cons (h : Fits ending (c :: line)) :
    c ≠ '\n' ∧ Fits ending line ∧
      ∀ rest t, c = '\r' → line ++ (ending.text ++ rest) ≠ '\n' :: t := by
  have hnewline := h.noNewline
  rw [List.mem_cons, not_or] at hnewline
  refine ⟨Ne.symm hnewline.1, ⟨hnewline.2, fun hending hlast => ?_⟩, ?_⟩
  · have hne : line ≠ [] := by
      rintro rfl
      simp at hlast
    exact h.noReturn hending (by rw [List.getLast?_cons_of_ne_nil hne, hlast])
  · rintro rest t rfl hstart
    cases line with
    | nil =>
      cases ending with
      | lf => exact h.noReturn rfl rfl
      | crlf => simp [LineEnding.text] at hstart
    | cons d line =>
      obtain ⟨rfl, -⟩ := List.cons.inj hstart
      exact hnewline.2 List.mem_cons_self

theorem lines_ending (h : Fits ending line) (rest : Text) :
    lines (line ++ (ending.text ++ rest)) = line :: lines rest := by
  induction line with
  | nil => cases ending <;> rfl
  | cons c line ih =>
    obtain ⟨hc, hline, hstart⟩ := h.of_cons
    rw [List.cons_append, lines.eq_4 c _ hc (hstart rest), ih hline]

theorem lines_ended (h : ∀ line ∈ front, Fits ending line) (last : Text) :
    lines (ended ending front ++ last) = front ++ last.lines := by
  induction front with
  | nil => rfl
  | cons line front ih =>
    rw [List.forall_mem_cons] at h
    rw [ended_cons, lines_ending h.1, ih h.2, List.cons_append]

theorem rejoined_ending_line (h : Fits ending line) (rest : Text) :
    rejoined ending.text (line ++ (ending.text ++ rest)) =
      line ++ (ending.text ++ rejoined ending.text rest) := by
  induction line with
  | nil =>
    cases ending with
    | lf => exact rejoined_newline
    | crlf => exact rejoined_return_newline
  | cons c line ih =>
    obtain ⟨hc, hline, hstart⟩ := h.of_cons
    rw [List.cons_append, rejoined_cons hc (hstart rest), ih hline, List.cons_append]

lemma ne_newline_cons (h : '\n' ∉ s) (t : Text) : s ≠ '\n' :: t := by
  rintro rfl
  exact h List.mem_cons_self

lemma rejoined_of_not_mem (h : '\n' ∉ s) (separator : Text) : rejoined separator s = s := by
  induction s with
  | nil => rfl
  | cons c s ih =>
    rw [List.mem_cons, not_or] at h
    rw [rejoined_cons (Ne.symm h.1) fun t _ => ne_newline_cons h.2 t, ih h.2]

theorem rejoined_ended (h : ∀ line ∈ front, Fits ending line) (hlast : '\n' ∉ last) :
    rejoined ending.text (ended ending front ++ last) = ended ending front ++ last := by
  induction front with
  | nil => exact rejoined_of_not_mem hlast _
  | cons line front ih =>
    rw [List.forall_mem_cons] at h
    rw [ended_cons, rejoined_ending_line h.1, ih h.2]

/-- Where lines fit a line feed, no carriage return comes to stand before it. -/
lemma infix_of_ending (h : Fits .lf line) {rest : Text}
    (hoccurs : ['\r', '\n'] <:+: line ++ ('\n' :: rest)) : ['\r', '\n'] <:+: rest := by
  induction line with
  | nil => simpa [List.infix_cons_iff] using hoccurs
  | cons c line ih =>
    obtain ⟨-, hline, hstart⟩ := h.of_cons
    rw [List.cons_append, List.infix_cons_iff] at hoccurs
    rcases hoccurs with ⟨t, ht⟩ | hoccurs
    · obtain ⟨hreturn, hnext⟩ := List.cons.inj ht
      exact absurd hnext.symm (hstart rest t hreturn.symm)
    · exact ih hline hoccurs

lemma not_infix_ended (h : ∀ line ∈ front, Fits .lf line) (hlast : '\n' ∉ last) :
    ¬ ['\r', '\n'] <:+: ended .lf front ++ last := by
  induction front with
  | nil => exact fun hoccurs => hlast (hoccurs.subset (by simp))
  | cons line front ih =>
    rw [List.forall_mem_cons] at h
    rw [ended_cons]
    exact fun hoccurs => ih h.2 (infix_of_ending h.1 hoccurs)

/-- The ending of a text that is written with one, unless it has a single line. -/
theorem ending_of_ended (h : ∀ line ∈ front, Fits ending line) (hlast : '\n' ∉ last)
    (hne : front ≠ []) : LineEnding.of (ended ending front ++ last) = ending := by
  unfold LineEnding.of
  simp only [occursIn_iff]
  cases ending with
  | lf => rw [if_neg (not_infix_ended h hlast)]
  | crlf =>
    obtain ⟨line, front, rfl⟩ := List.exists_cons_of_ne_nil hne
    rw [if_pos]
    exact ⟨line, ended .crlf front ++ last, by simp [ended, LineEnding.text]⟩

theorem unified_ended (h : ∀ line ∈ front, Fits ending line) (hlast : '\n' ∉ last) :
    (ended ending front ++ last).unified = ended ending front ++ last := by
  rw [← rejoined_ending]
  cases front with
  | nil => exact rejoined_of_not_mem hlast _
  | cons line front => rw [ending_of_ended h hlast (List.cons_ne_nil _ _), rejoined_ended h hlast]

lemma joined_concat (ending : LineEnding) (front : List Text) (last : Text) :
    joined ending.text (front ++ [last]) = ended ending front ++ last := by
  induction front with
  | nil => rfl
  | cons line front ih =>
    obtain ⟨next, rest, hrest⟩ := List.exists_cons_of_ne_nil (List.append_ne_nil_of_right_ne_nil front
      (List.cons_ne_nil last []))
    rw [List.cons_append, hrest, joined, ← hrest, ih, ended_cons, List.append_assoc]

/-! ## The lines of a text -/

lemma newline_not_mem_lines (s : Text) : ∀ line ∈ s.lines, '\n' ∉ line := by
  induction s using lines_induction with
  | nil => simp [lines]
  | newline s ih => simpa [lines] using ih
  | return_newline s ih => simpa [lines] using ih
  | other c s hc hs ih =>
    rw [lines.eq_4 c s hc hs]
    cases hlines : lines s with
    | nil => simpa using Ne.symm hc
    | cons first rest =>
      rw [hlines, List.forall_mem_cons] at ih
      rw [List.forall_mem_cons, List.mem_cons, not_or]
      exact ⟨⟨Ne.symm hc, ih.1⟩, ih.2⟩

lemma lines_of_not_mem (h : '\n' ∉ s) (hne : s ≠ []) : s.lines = [s] := by
  induction s with
  | nil => exact absurd rfl hne
  | cons c s ih =>
    rw [List.mem_cons, not_or] at h
    rw [lines.eq_4 c s (Ne.symm h.1) fun t _ => ne_newline_cons h.2 t]
    cases s with
    | nil => rfl
    | cons d s => rw [ih h.2 (List.cons_ne_nil d s)]

lemma eq_of_mem_lines (h : '\n' ∉ s) (hmem : line ∈ s.lines) : line = s := by
  by_cases hne : s = []
  · simp [hne, lines] at hmem
  · simpa [lines_of_not_mem h hne] using hmem

/-- A line that is empty begins with its ending. -/
lemma eq_of_lines_nil_cons {rest : List Text} (h : s.lines = [] :: rest) :
    (∃ t, s = '\n' :: t) ∨ ∃ t, s = '\r' :: '\n' :: t := by
  fun_cases lines s with
  | case1 => simp [lines] at h
  | case2 t => exact .inl ⟨t, rfl⟩
  | case3 t => exact .inr ⟨t, rfl⟩
  | case4 => simp_all [lines]
  | case5 => simp_all [lines]

/-- In a text without a carriage return before a line feed no line that is ended has one at its end. -/
theorem getLast?_of_mem_lines (hends : EndsLine s) (h : ¬ ['\r', '\n'] <:+: s) :
    ∀ line ∈ s.lines, line.getLast? ≠ some '\r' := by
  induction s using lines_induction with
  | nil => simp [lines]
  | newline s ih =>
    have hrest := ih (endsLine_newline_cons.mp hends) fun hs => h (List.infix_cons hs)
    simpa [lines] using hrest
  | return_newline s _ => exact absurd ⟨[], s, rfl⟩ h
  | other c s hc hs ih =>
    have hne := ne_nil_of_endsLine_cons hends hc
    have hrest := ih ((endsLine_cons_of_ne_nil hne).mp hends) fun hs => h (List.infix_cons hs)
    obtain ⟨first, rest, hlines⟩ := List.exists_cons_of_ne_nil (lines_ne_nil hne)
    rw [lines.eq_4 c s hc hs, hlines]
    rw [hlines, List.forall_mem_cons] at hrest
    refine List.forall_mem_cons.mpr ⟨?_, hrest.2⟩
    cases first with
    | cons d first => rw [List.getLast?_cons_cons]; exact hrest.1
    | nil =>
      -- The line is the one character, and it stands just before the ending.
      rw [List.getLast?_singleton, ne_eq, Option.some.injEq]
      intro hreturn
      obtain ⟨t, ht⟩ | ⟨t, rfl⟩ := eq_of_lines_nil_cons hlines
      · exact hs t hreturn ht
      · exact h ⟨[c], t, rfl⟩

lemma fits_of_mem_lines (hends : EndsLine s) (t : Text) :
    ∀ line ∈ s.lines, Fits (LineEnding.of (s ++ t)) line := by
  intro line hmem
  refine ⟨newline_not_mem_lines s line hmem, fun hlf => ?_⟩
  refine getLast?_of_mem_lines hends (fun hoccurs => ?_) line hmem
  have hwhole := occursIn_iff.mpr (hoccurs.trans (List.prefix_append s t).isInfix)
  simp [LineEnding.of, hwhole] at hlf

/-- Every text is made of lines that are ended and of a rest without a line feed. -/
lemma exists_endsLine (s : Text) : ∃ before last, s = before ++ last ∧ EndsLine before ∧ '\n' ∉ last := by
  cases hsplit : splitLast? '\n' s with
  | none => exact ⟨[], s, rfl, endsLine_nil, splitLast?_eq_none_iff.mp hsplit⟩
  | some found =>
    obtain ⟨hs, hlast⟩ := eq_append_of_splitLast? hsplit
    refine ⟨found.1 ++ ['\n'], found.2, by simpa using hs, ?_, hlast⟩
    simp [EndsLine]

end Text

/-! ## What the built-in handlers leave -/

lemma Builtin.eq_line_of_plain {document : Document} {call : Call} {text : Text} {output : Output}
    (hscript : call.handler.script = fun args _ => .check (args.expectOnly []) fun _ => .line text)
    (h : (call.run document).1 = .ok output) : output = .line text := by
  obtain ⟨number, invocation, handler, stash⟩ := call
  rw [run_plain hscript] at h
  cases hexpect : invocation.arguments.expectOnly [] with
  | error fault => simp [hexpect, Except.map] at h
  | ok _ =>
    rw [hexpect] at h
    exact (Except.ok.inj h).symm

/-- The line that a built-in handler returns: the mark of a table of contents, an empty one, or the token
of what it put into the stash. -/
theorem Builtin.line_of_run {defaultDepth : ℕ} {document : Document} {call : Call} {output : Output}
    (hmem : call.handler ∈ handlers defaultDepth) (h : (call.run document).1 = .ok output) :
    ∃ text, output = .line text ∧
      (text = "[TOC]".toList ∨ text = [] ∨ text = call.stash.nextToken) := by
  obtain ⟨number, invocation, handler, stash⟩ := call
  simp only [handlers, List.mem_cons, List.not_mem_nil, or_false] at hmem
  rcases hmem with rfl | rfl | rfl
  · exact ⟨_, eq_line_of_plain rfl h, .inl rfl⟩
  · rw [run_articleList] at h
    cases hdepth : depthOf defaultDepth invocation.arguments with
    | error fault => simp [hdepth] at h
    | ok depth =>
      rw [hdepth] at h
      exact ⟨_, (Except.ok.inj h).symm, .inr (.inr rfl)⟩
  · exact ⟨_, eq_line_of_plain rfl h, .inr (.inl rfl)⟩

lemma Stash.not_mem_token {c : Char} (h : Foreign c) (place : ℕ) : c ∉ token place :=
  h _ (isDigits_decimal place)

namespace Registry
variable {registry : Registry} {document : Document} {defaultDepth : ℕ}

/-- A line that stands for a line of the source and calls no handler any more. It is that line, or it has
no character of an ending. -/
structure Settles (registry : Registry) (source line : Text) : Prop where
  undispatched : registry.dispatched? line = none
  kept : line = source ∨ '\n' ∉ line ∧ '\r' ∉ line

lemma Settles.fits {source line : Text} (h : registry.Settles source line) {ending : LineEnding}
    (hsource : source.Fits ending) : line.Fits ending := by
  rcases h.kept with rfl | ⟨hnewline, hreturn⟩
  · exact hsource
  · exact Text.fits_of_not_mem hnewline hreturn

lemma dispatched?_of_not_mem {text : Text} (h : '[' ∉ text) : registry.dispatched? text = none := by
  have hdetect := Invocation.detect_append h []
  rw [List.append_nil] at hdetect
  rw [dispatched?, hdetect]
  rfl

namespace OnlyBuiltins

/-- The mark of a table of contents is a directive, but no built-in one. -/
lemma dispatched?_mark (h : registry.OnlyBuiltins defaultDepth) :
    registry.dispatched? "[TOC]".toList = none := by
  rw [Option.eq_none_iff_forall_ne_some]
  rintro ⟨invocation, handler⟩ hsome
  obtain ⟨hname, hmem⟩ := h.of_dispatched? hsome
  have hdetect := (dispatched?_eq_some_iff.mp hsome).1
  obtain rfl : ⟨"TOC".toList, none⟩ = invocation := Option.some.inj hdetect
  have hnames : "TOC".toList ∈ (Builtin.handlers defaultDepth).map (·.name) :=
    List.mem_map.mpr ⟨handler, hmem, hname⟩
  have hothers : "TOC".toList ∉ ["toc".toList, "article_list".toList, "wikilink".toList] := by decide
  exact hothers hnames

theorem settles_of_run (h : registry.OnlyBuiltins defaultDepth) {call : Call} {output : Output}
    (hmem : call.handler ∈ Builtin.handlers defaultDepth) (hrun : (call.run document).1 = .ok output)
    (source : Text) : ∃ text, output = .line text ∧ registry.Settles source text := by
  obtain ⟨text, houtput, hcases⟩ := Builtin.line_of_run hmem hrun
  refine ⟨text, houtput, ?_⟩
  rcases hcases with rfl | rfl | rfl
  · exact ⟨h.dispatched?_mark, .inr (by decide)⟩
  · exact ⟨rfl, .inr (by simp)⟩
  · have hforeign : ∀ c ∈ ['[', '\n', '\r'], c ∉ call.stash.nextToken := by
      intro c hc
      apply Stash.not_mem_token
      simp only [List.mem_cons, List.not_mem_nil, or_false] at hc
      rcases hc with rfl | rfl | rfl <;> exact Stash.foreign_of (by decide) rfl (by decide)
    exact ⟨dispatched?_of_not_mem (hforeign '[' (by simp)),
      .inr ⟨hforeign '\n' (by simp), hforeign '\r' (by simp)⟩⟩

theorem settles_of_expandLine (h : registry.OnlyBuiltins defaultDepth) {number : ℕ} {text : Text}
    {session next : Session} {line? : Option Line}
    (hline : registry.expandLine document number text session = (.ok line?, next)) :
    ∃ line, line? = some line ∧ registry.Settles text line.text := by
  cases hdispatched : registry.dispatched? text with
  | none =>
    rw [expandLine_of_none hdispatched] at hline
    obtain rfl := Except.ok.inj (Prod.mk.inj hline).1
    exact ⟨_, rfl, hdispatched, .inl rfl⟩
  | some found =>
    set call : Call := ⟨number, found.1, found.2, session.stash⟩
    rw [expandLine_of_call call rfl rfl hdispatched] at hline
    have hresult := (Prod.mk.inj hline).1
    cases hrun : (call.run document).1 with
    | error fault => simp [hrun, Except.map, Except.mapError] at hresult
    | ok output =>
      obtain ⟨line, rfl, hsettles⟩ :=
        h.settles_of_run (h.of_dispatched? hdispatched).2 hrun text
      obtain rfl : some ⟨line, true⟩ = line? := by
        simpa [hrun, Except.map, Except.mapError, Output.line?] using hresult
      exact ⟨_, rfl, hsettles⟩

theorem settles_of_expandFrom (h : registry.OnlyBuiltins defaultDepth) {number : ℕ}
    {texts : List Text} {session final : Session} {lines : List Line}
    (hrun : registry.expandFrom document number texts session = (.ok lines, final)) :
    List.Forall₂ registry.Settles texts (lines.map (·.text)) := by
  induction texts generalizing number session lines with
  | nil =>
    obtain rfl : [] = lines := Except.ok.inj (Prod.mk.inj hrun).1
    exact .nil
  | cons text texts ih =>
    obtain ⟨line?, next, rest, hline, hrest, rfl⟩ := exists_of_expandFrom_cons hrun
    obtain ⟨line, rfl, hsettles⟩ := h.settles_of_expandLine hline
    exact .cons hsettles (ih hrest)

end OnlyBuiltins

end Registry

/-! ## Pages -/

lemma exists_append_of_forall₂ {α β : Type} {R : α → β → Prop} {xs ys : List α} {zs : List β}
    (h : List.Forall₂ R (xs ++ ys) zs) :
    ∃ us vs, zs = us ++ vs ∧ List.Forall₂ R xs us ∧ List.Forall₂ R ys vs := by
  refine ⟨zs.take xs.length, zs.drop xs.length, (List.take_append_drop _ _).symm, ?_, ?_⟩
  · simpa using List.forall₂_take xs.length h
  · simpa using List.forall₂_drop xs.length h

lemma exists_of_forall₂ {α β : Type} {R : α → β → Prop} {xs : List α} {ys : List β}
    (h : List.Forall₂ R xs ys) {y : β} (hy : y ∈ ys) : ∃ x ∈ xs, R x y := by
  induction h with
  | nil => simp at hy
  | cons hfirst _ ih =>
    rcases List.mem_cons.mp hy with rfl | hy
    · exact ⟨_, List.mem_cons_self, hfirst⟩
    · obtain ⟨x, hx, hR⟩ := ih hy
      exact ⟨x, List.mem_cons_of_mem _ hx, hR⟩

namespace Page
variable {page : Page}

lemma assemble_of_trailing (h : page.trailing = true) (lines : List Text) :
    page.assemble lines = Text.ended page.ending lines := by
  rcases List.eq_nil_or_concat lines with rfl | ⟨front, last, rfl⟩
  · simp [assemble, Text.joined, Text.ended]
  · simp [assemble, h, Text.joined_concat, Text.ended]

lemma assemble_of_not_trailing (h : page.trailing = false) (front : List Text) (last : Text) :
    page.assemble (front ++ [last]) = Text.ended page.ending front ++ last := by
  simp [assemble, h, Text.joined_concat]

end Page

namespace Registry
variable {registry : Registry} {document : Document} {defaultDepth : ℕ}

lemma expandText_shape {text : Text} {page : Page} {final : Session}
    (h : registry.expandText document text = (.ok page, final)) :
    page.ending = .of text ∧ page.trailing = decide (text.getLast? = some '\n') := by
  unfold expandText at h
  rcases hexpand : registry.expand document text.lines {} with ⟨fault | lines, session⟩
  · simp [hexpand, Except.map] at h
  · rw [hexpand] at h
    obtain rfl := Except.ok.inj (Prod.mk.inj h).1
    exact ⟨rfl, rfl⟩

/-- A page of built-in directives is written as lines that fit its ending, none of which calls a
handler. -/
theorem OnlyBuiltins.exists_ended (h : registry.OnlyBuiltins defaultDepth) {text : Text} {page : Page}
    {final : Session} (hrun : registry.expandText document text = (.ok page, final)) :
    ∃ front last, page.toText = Text.ended page.ending front ++ last ∧ '\n' ∉ last ∧
      (∀ line ∈ front, line.Fits page.ending) ∧
      ∀ line ∈ front ++ Text.lines last, registry.dispatched? line = none := by
  obtain ⟨hending, htrailing⟩ := expandText_shape hrun
  obtain ⟨lines, hexpand, hlines, -, -⟩ := expandText_ok hrun
  have hsettles : List.Forall₂ registry.Settles text.lines page.lines :=
    hlines ▸ h.settles_of_expandFrom hexpand
  obtain ⟨before, tail, rfl, hends, htail⟩ := Text.exists_endsLine text
  rw [Text.lines_append hends] at hsettles
  obtain ⟨front, back, hpage, hfront, hback⟩ := exists_append_of_forall₂ hsettles
  have hfits : ∀ line ∈ front, line.Fits page.ending := by
    intro line hmem
    obtain ⟨source, hsource, hline⟩ := exists_of_forall₂ hfront hmem
    exact hline.fits (hending ▸ Text.fits_of_mem_lines hends tail source hsource)
  have hnone : ∀ line ∈ front, registry.dispatched? line = none := by
    intro line hmem
    obtain ⟨source, -, hline⟩ := exists_of_forall₂ hfront hmem
    exact hline.undispatched
  by_cases hempty : tail = []
  · -- Every line of the source is ended, so all lines of the page are.
    subst hempty
    obtain rfl := List.forall₂_nil_left_iff.mp hback
    refine ⟨front, [], ?_, List.not_mem_nil, hfits, by simpa [Text.lines] using hnone⟩
    rw [List.append_nil] at hpage htrailing ⊢
    rw [Page.toText, hpage]
    cases hlast : before.getLast? with
    | some c =>
      obtain rfl := hends c hlast
      exact Page.assemble_of_trailing (by simp [htrailing, hlast]) front
    | none =>
      obtain rfl := List.getLast?_eq_none_iff.mp hlast
      obtain rfl := List.forall₂_nil_left_iff.mp hfront
      simp [Page.assemble, Text.joined, Text.ended]
  · -- The last line has no ending, neither in the source nor in the page.
    rw [Text.lines_of_not_mem htail hempty] at hback
    obtain ⟨last, rest, hlast, hrest, rfl⟩ := List.forall₂_cons_left_iff.mp hback
    obtain rfl := List.forall₂_nil_left_iff.mp hrest
    have hnewline : '\n' ∉ last := by
      rcases hlast.kept with rfl | ⟨hnewline, -⟩
      · exact htail
      · exact hnewline
    have hopen : page.trailing = false := by
      rw [htrailing, List.getLast?_append_of_ne_nil before hempty, decide_eq_false_iff_not]
      exact fun h => htail (List.mem_of_getLast? h)
    refine ⟨front, last, ?_, hnewline, hfits, fun line hmem => ?_⟩
    · rw [Page.toText, hpage, Page.assemble_of_not_trailing hopen]
    · rcases List.mem_append.mp hmem with hmem | hmem
      · exact hnone line hmem
      · exact Text.eq_of_mem_lines hnewline hmem ▸ hlast.undispatched

end Registry

/-- A page of built-in directives that is written with its tokens stays as it is. Expanded again, for
whatever document, it does not fail, nothing is kept aside, and the text is the same, however the lines of
the source were ended and even if its last line became empty. -/
theorem expandText_toText (registry : Registry) (defaultDepth : ℕ)
    (hbuiltins : registry.OnlyBuiltins defaultDepth) (document : Document) (text : Text) (page : Page)
    (final : Session) (h : registry.expandText document text = (.ok page, final))
    (other : Document) :
    ∃ again last, registry.expandText other page.toText = (.ok again, last) ∧
      again.stash.entries = [] ∧ again.toText = page.toText := by
  obtain ⟨front, last, htext, hlast, hfits, hnone⟩ := hbuiltins.exists_ended h
  have hundispatched : ∀ line ∈ page.toText.lines, registry.dispatched? line = none := by
    rw [htext, Text.lines_ended hfits]
    exact hnone
  obtain ⟨events, hagain⟩ := Registry.expandText_of_undispatched other hundispatched
  refine ⟨_, _, hagain, rfl, ?_⟩
  rw [Page.toText_ofSource, htext, Text.unified_ended hfits hlast]

/-- Line feeds of both kinds, a line that keeps a carriage return, a mark that reads like a directive, and
a last line that becomes empty. -/
theorem expandText_toText_mixedEndings :
    let settings : Settings := { defaultDepth := 3 }
    let document : Document := ⟨"Home".toList, fun _ => []⟩
    let text : Text := "[toc]\n[article_list]\r\n[other]\r\r\n[wikilink]".toList
    let written : Text := "[TOC]\r\n\x02wmstash:0\x03\r\n[other]\r\r\n".toList
    ∃ registry page final, settings.registry = .ok registry ∧ registry.OnlyBuiltins 3 ∧
      registry.expandText document text = (.ok page, final) ∧ page.toText = written ∧
      ∃ again last, registry.expandText document written = (.ok again, last) ∧
        again.stash.entries = [] ∧ again.toText = written := by
  intro settings document text written
  obtain ⟨registry, hregistry⟩ : ∃ registry, settings.registry = .ok registry := ⟨_, rfl⟩
  have hbuiltins : registry.OnlyBuiltins 3 := Registry.OnlyBuiltins.of_settings hregistry
  have hresult : (registry.expandText document text).1.map Page.toText = .ok written := by
    obtain rfl := Except.ok.inj hregistry
    decide +kernel
  rcases hrun : registry.expandText document text with ⟨fault | page, final⟩
  · simp [hrun, Except.map] at hresult
  · have hwritten : page.toText = written := by simpa [hrun, Except.map] using hresult
    have hagain := expandText_toText registry 3 hbuiltins document text page final hrun document
    rw [hwritten] at hagain
    exact ⟨registry, page, final, hregistry, hbuiltins, hrun, hwritten, hagain⟩

end WikiDirectives
