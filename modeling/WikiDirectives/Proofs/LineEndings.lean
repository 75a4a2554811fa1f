import Mathlib.Data.List.Infix
import WikiDirectives.Proofs.Inlining

/-! A page without a line that calls a handler is its source again. Splitting the text into lines and
writing them with one ending undo each other, but for line feeds that stand alone in a text with
carriage returns: those get one too. -/
namespace WikiDirectives

namespace Text

/-! ## Uniform endings -/

/-- A carriage return is put before each line feed that has none; `previous` is the character before
the text. -/
def withReturns : Option Char → Text → Text
  | _, [] => []
  | previous, c :: s =>
    if c = '\n' ∧ previous ≠ some '\r' then '\r' :: '\n' :: withReturns (some c) s
    else c :: withReturns (some c) s

/-- The text as it is if no carriage return stands before a line feed, and with one before every line
feed otherwise. -/
def unified (s : Text) : Text := if ['\r', '\n'] <:+: s then withReturns none s else s

/-- No line feed has a carriage return before it, or all have. -/
def UniformEndings (s : Text) : Prop :=
  ¬ ['\r', '\n'] <:+: s ∨ ∀ i < s.length, s[i]? = some '\n' → (s.take i).getLast? = some '\r'

instance (s : Text) : Decidable s.UniformEndings := inferInstanceAs (Decidable (_ ∨ _))

theorem withReturns_eq_self {previous : Option Char} {s : Text}
    (h : ∀ i < s.length, s[i]? = some '\n' → (s.take i).getLast?.or previous = some '\r') :
    withReturns previous s = s := by
  induction s generalizing previous with
  | nil => rfl
  | cons c s ih =>
    have hfirst : ¬ (c = '\n' ∧ previous ≠ some '\r') := by
      rintro ⟨rfl, hprevious⟩
      exact hprevious (by simpa using h 0)
    rw [withReturns, if_neg hfirst, ih]
    intro i hi hnewline
    have hlater := h (i + 1) (Nat.succ_lt_succ hi) hnewline
    rw [List.take_succ_cons, List.getLast?_cons] at hlater
    cases hlast : (s.take i).getLast? <;> simpa [hlast] using hlater

theorem unified_eq_self {s : Text} (h : s.UniformEndings) : s.unified = s := by
  unfold unified
  split_ifs with hinfix
  · rcases h with hnot | hall
    · exact absurd hinfix hnot
    · refine withReturns_eq_self fun i hi hnewline => ?_
      rw [hall i hi hnewline, Option.some_or]
  · rfl

/-! ## Lines put together again -/

/-- The lines of a text written with an ending, also after the last one if the text ends there. -/
def rejoined (ending s : Text) : Text :=
  joined ending s.lines ++ if s.getLast? = some '\n' ∧ s.lines ≠ [] then ending else []

/-- Induction on how a text begins: with the ending of an empty line, or with a character of its first
line. -/
@[elab_as_elim]
theorem lines_induction {motive : Text → Prop} (nil : motive [])
    (newline : ∀ s, motive s → motive ('\n' :: s))
    (return_newline : ∀ s, motive s → motive ('\r' :: '\n' :: s))
    (other : ∀ c s, c ≠ '\n' → (∀ t, c = '\r' → s ≠ '\n' :: t) → motive s → motive (c :: s))
    (s : Text) : motive s := by
  induction s using lines.induct with
  | case1 => exact nil
  | case2 s ih => exact newline s ih
  | case3 s ih => exact return_newline s ih
  | case4 c s hc hs _ ih => exact other c s hc hs ih
  | case5 c s hc hs _ _ _ ih => exact other c s hc hs ih

lemma lines_eq_nil_iff {s : Text} : s.lines = [] ↔ s = [] := by
  fun_cases lines s <;> simp_all

variable {ending s : Text} {c : Char}

/-- An empty line in front is written as its ending. -/
lemma rejoined_of_lines {t : Text} (hlines : t.lines = [] :: s.lines)
    (hlast : t.getLast? = some (s.getLast?.getD '\n')) :
    rejoined ending t = ending ++ rejoined ending s := by
  unfold rejoined
  rw [hlines, hlast]
  cases hs : s.lines with
  | nil =>
    obtain rfl := lines_eq_nil_iff.mp hs
    simp [joined]
  | cons line rest =>
    have hne : s ≠ [] := fun hnil => by simp [hnil, lines] at hs
    simp [joined, List.getLast?_eq_some_getLast hne]

lemma rejoined_newline : rejoined ending ('\n' :: s) = ending ++ rejoined ending s :=
  rejoined_of_lines rfl List.getLast?_cons

lemma rejoined_return_newline :
    rejoined ending ('\r' :: '\n' :: s) = ending ++ rejoined ending s :=
  rejoined_of_lines rfl (by rw [List.getLast?_cons_cons, List.getLast?_cons])

lemma rejoined_cons (hc : c ≠ '\n') (hs : ∀ t, c = '\r' → s ≠ '\n' :: t) :
    rejoined ending (c :: s) = c :: rejoined ending s := by
  unfold rejoined
  rw [lines.eq_4 c s hc hs]
  cases hlines : s.lines with
  | nil =>
    obtain rfl := lines_eq_nil_iff.mp hlines
    simp [joined, hc]
  | cons line rest =>
    have hne : s ≠ [] := fun hnil => by simp [hnil, lines] at hlines
    cases rest <;> simp [joined, List.getLast?_cons_of_ne_nil hne]

theorem rejoined_lf (h : ¬ ['\r', '\n'] <:+: s) : rejoined ['\n'] s = s := by
  induction s using lines_induction with
  | nil => rfl
  | newline s ih => rw [rejoined_newline, ih fun hs => h (List.infix_cons hs), List.singleton_append]
  | return_newline s _ => exact absurd ⟨[], s, rfl⟩ h
  | other c s hc hs ih => rw [rejoined_cons hc hs, ih fun hs => h (List.infix_cons hs)]

/-- The two characters of an ending are read at once, so the text never goes on with the line feed of
a carriage return that stands before it. -/
theorem rejoined_crlf (previous : Option Char) (h : previous = some '\r' → s.head? ≠ some '\n') :
    rejoined ['\r', '\n'] s = withReturns previous s := by
  induction s using lines_induction generalizing previous with
  | nil => rfl
  | newline s ih =>
    have hprevious : previous ≠ some '\r' := fun hreturn => h hreturn rfl
    rw [rejoined_newline, ih (some '\n') (by simp), withReturns, if_pos ⟨rfl, hprevious⟩]
    rfl
  | return_newline s ih =>
    rw [rejoined_return_newline, ih (some '\n') (by simp)]
    simp [withReturns]
  | other c s hc hs ih =>
    rw [rejoined_cons hc hs, ih (some c), withReturns, if_neg fun hnewline => hc hnewline.1]
    intro hreturn hnewline
    obtain ⟨t, ht⟩ := List.head?_eq_some_iff.mp hnewline
    exact hs t (Option.some.inj hreturn) ht

theorem occursIn_iff {part : Text} : occursIn part s = true ↔ part <:+: s := by
  induction s with
  | nil => simp [occursIn, List.infix_nil]
  | cons c s ih => simp [occursIn, List.infix_cons_iff, ih]

/-- Lines written with the ending of their text make up the text with uniform endings. -/
theorem rejoined_ending (s : Text) : rejoined (LineEnding.of s).text s = s.unified := by
  unfold LineEnding.of unified
  simp only [occursIn_iff]
  split_ifs with h
  · exact rejoined_crlf none (by simp)
  · exact rejoined_lf h

end Text

/-! ## Pages without calls -/

/-- The page of a text for which no handler is run. -/
def Page.ofSource (text : Text) : Page where
  lines := text.lines
  stash := {}
  generated := text.lines.map fun _ => false
  ending := .of text
  trailing := text.getLast? = some '\n'

lemma Page.toText_ofSource (text : Text) : (ofSource text).toText = text.unified := by
  rw [← Text.rejoined_ending]
  simp [toText, assemble, Text.rejoined, ofSource]

lemma Page.render_ofSource (text : Text) : (ofSource text).render = text.unified := by
  have hlines : (ofSource text).lines = (text.lines.map (Line.mk · false)).map (·.text) := by
    simp [ofSource, Function.comp_def]
  have hgenerated : (ofSource text).generated =
      (text.lines.map (Line.mk · false)).map (·.generated) := by
    simp [ofSource, Function.comp_def]
  rw [← toText_ofSource, toText, render_eq hlines hgenerated]
  congr 1
  simp [ofSource, Line.rendered, Function.comp_def]

namespace Registry
variable {registry : Registry}

theorem expandFrom_of_undispatched (document : Document) {texts : List Text}
    (h : ∀ text ∈ texts, registry.dispatched? text = none) (number : ℕ) (session : Session) :
    ∃ events, registry.expandFrom document number texts session =
      (.ok (texts.map (⟨·, false⟩)), { session with events }) := by
  induction texts generalizing number session with
  | nil => exact ⟨session.events, rfl⟩
  | cons text texts ih =>
    rw [expandFrom_cons_of_ok (expandLine_of_none (h text List.mem_cons_self) session)]
    obtain ⟨events, hrest⟩ := ih (fun other hother => h other (List.mem_cons_of_mem _ hother))
      (number + 1) { session with events := session.events ++ registry.passing number text }
    rw [hrest]
    exact ⟨events, rfl⟩

theorem expandText_of_undispatched (document : Document) {text : Text}
    (h : ∀ line ∈ text.lines, registry.dispatched? line = none) :
    ∃ events, registry.expandText document text = (.ok (Page.ofSource text), { events }) := by
  obtain ⟨events, hrun⟩ := expandFrom_of_undispatched document h 1 {}
  refine ⟨events, ?_⟩
  unfold expandText expand
  rw [hrun]
  simp [Page.ofSource, Except.map, Function.comp_def]

end Registry

/-- A text in which no line calls a handler passes through: nothing fails and nothing is kept aside,
and the page is the text with uniform endings, whether or not the stash is put back. If its endings
are uniform already, it is the text itself. -/
theorem expandText_passes (registry : Registry) (document : Document) (text : Text)
    (h : ∀ line ∈ text.lines, registry.dispatched? line = none) :
    ∃ page final, registry.expandText document text = (.ok page, final) ∧ page.stash.entries = [] ∧
      page.toText = text.unified ∧ page.render = text.unified ∧
      (text.UniformEndings → page.toText = text ∧ page.render = text) := by
  obtain ⟨events, hexpand⟩ := Registry.expandText_of_undispatched document h
  have htext := Page.toText_ofSource text
  have hrender := Page.render_ofSource text
  refine ⟨_, _, hexpand, rfl, htext, hrender, fun huniform => ?_⟩
  have hself := Text.unified_eq_self huniform
  exact ⟨htext.trans hself, hrender.trans hself⟩

/-- Line feeds of both kinds become alike; lines that end with more than one carriage return keep
them, and so does the last line. -/
theorem expandText_passes_returns :
    let document : Document := ⟨[], fun _ => []⟩
    let mixed : Text := "[TOC]\n\n[other]\r\r\n\r".toList
    let uniform : Text := "[other]\r\r\n\r\n\r".toList
    (∀ line ∈ mixed.lines, Registry.listAndToc.dispatched? line = none) ∧
      (∀ line ∈ uniform.lines, Registry.listAndToc.dispatched? line = none) ∧
      (∃ page final, Registry.listAndToc.expandText document mixed = (.ok page, final) ∧
        page.render = "[TOC]\r\n\r\n[other]\r\r\n\r".toList) ∧
      uniform.UniformEndings ∧
      ∃ page final, Registry.listAndToc.expandText document uniform = (.ok page, final) ∧
        page.render = uniform := by
  intro document mixed uniform
  have hmixed : ∀ line ∈ mixed.lines, Registry.listAndToc.dispatched? line = none := by decide
  have huniform : ∀ line ∈ uniform.lines, Registry.listAndToc.dispatched? line = none := by decide
  have hendings : uniform.UniformEndings := by decide
  refine ⟨hmixed, huniform, ?_, hendings, ?_⟩
  · obtain ⟨page, final, hexpand, -, -, hrender, -⟩ :=
      expandText_passes Registry.listAndToc document mixed hmixed
    exact ⟨page, final, hexpand, hrender⟩
  · obtain ⟨page, final, hexpand, -, -, -, hself⟩ :=
      expandText_passes Registry.listAndToc document uniform huniform
    exact ⟨page, final, hexpand, (hself hendings).2⟩

end WikiDirectives
