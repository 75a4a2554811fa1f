import WikiDirectives.Proofs.BuiltinCalls
import WikiDirectives.Proofs.Tokens

/-! A page with the built-in directives is rendered to the text in which each directive's line is
replaced at once by what the directive stands for, as if there were no stash and no tokens. -/
namespace WikiDirectives

/-! ## Expansion without a stash -/

/-- What a built-in directive stands for. -/
def Builtin.inlined (defaultDepth : ℕ) (document : Document) (invocation : Invocation) :
    Except Fault Text :=
  if invocation.name = toc.name then
    (invocation.arguments.expectOnly []).map fun _ => "[TOC]".toList
  else if invocation.name = wikilink.name then
    (invocation.arguments.expectOnly []).map fun _ => []
  else (depthOf defaultDepth invocation.arguments).map (listing document)

namespace Registry

def inlineLine (registry : Registry) (defaultDepth : ℕ) (document : Document) (number : ℕ)
    (text : Text) : Except LineFault Text :=
  match registry.dispatched? text with
  | none => .ok text
  | some (invocation, _) =>
    (Builtin.inlined defaultDepth document invocation).mapError (⟨number, invocation.name, ·⟩)

/-- The lines that are numbered from `number` on, up to the first fault. -/
def inlineFrom (registry : Registry) (defaultDepth : ℕ) (document : Document) :
    ℕ → List Text → Except LineFault (List Text)
  | _, [] => .ok []
  | number, text :: texts =>
    match registry.inlineLine defaultDepth document number text with
    | .error fault => .error fault
    | .ok line => (registry.inlineFrom defaultDepth document (number + 1) texts).map (line :: ·)

/-- A text with its directives written out. The lines get the ending of the text between them, and
after the last one if the text ends a line there. -/
def inlineText (registry : Registry) (defaultDepth : ℕ) (document : Document) (text : Text) :
    Except LineFault Text :=
  let ending := (LineEnding.of text).text
  (registry.inlineFrom defaultDepth document 1 text.lines).map fun lines =>
    Text.joined ending lines ++ if text.getLast? = some '\n' ∧ lines ≠ [] then ending else []

end Registry

/-! ## Rendered lines -/

def Line.rendered (stash : Stash) (line : Line) : Text :=
  if line.generated then stash.resolveAll line.text else line.text

/-- The line is rendered to `content`, whatever more is put into the stash. -/
def Line.StandsFor (stash : Stash) (line : Line) (content : Text) : Prop :=
  ∀ later : Stash, stash.entries <+: later.entries → later.entries.length ≤ wordBound →
    line.rendered later = content

lemma Line.StandsFor.mono {stash later : Stash} {line : Line} {content : Text}
    (h : line.StandsFor stash content) (hlater : stash.entries <+: later.entries) :
    line.StandsFor later content :=
  fun last hlast hbound => h last (hlater.trans hlast) hbound

lemma Line.standsFor_source (stash : Stash) (text : Text) :
    Line.StandsFor stash ⟨text, false⟩ text :=
  fun _ _ _ => rfl

lemma Line.standsFor_plain (stash : Stash) {text : Text} (h : '\x02' ∉ text) :
    Line.StandsFor stash ⟨text, true⟩ text :=
  fun _ _ _ => Stash.resolveAll_eq_self h

theorem Line.standsFor_nextToken (stash : Stash) (content : Text) :
    Line.StandsFor (stash.put content) ⟨stash.nextToken, true⟩ content := by
  intro later hlater hbound
  have hentry : later.entries[stash.entries.length]? = some content := by
    obtain ⟨rest, hrest⟩ := hlater
    rw [← hrest]
    simp [Stash.put]
  have hplace : stash.entries.length < later.entries.length :=
    (List.getElem?_eq_some_iff.mp hentry).1
  exact Stash.resolveAll_token (by omega) hentry

/-! ## Calls and lines -/

/-- A call agrees with a result of the expansion without a stash: it fails alike, or the line that
it returns stands for the content. -/
def Call.Inlines (document : Document) (call : Call) : Except Fault Text → Prop
  | .error fault => (call.run document).1 = .error fault
  | .ok content => ∃ text, (call.run document).1 = .ok (.line text) ∧
      call.stash.entries <+: (call.run document).2.stash.entries ∧
      Line.StandsFor (call.run document).2.stash ⟨text, true⟩ content

namespace Builtin
variable {defaultDepth : ℕ} {document : Document}

theorem inlines_plain {handler : Handler} {text : Text}
    (hscript : handler.script = fun args _ => .check (args.expectOnly []) fun _ => .line text)
    (htext : '\x02' ∉ text) (number : ℕ) (invocation : Invocation) (stash : Stash) :
    Call.Inlines document ⟨number, invocation, handler, stash⟩
      ((invocation.arguments.expectOnly []).map fun _ => text) := by
  cases hargs : invocation.arguments.expectOnly [] with
  | error fault =>
    simp only [Except.map, Call.Inlines]
    rw [run_plain hscript, hargs]
    rfl
  | ok _ =>
    simp only [Except.map, Call.Inlines]
    rw [run_plain hscript, hargs]
    exact ⟨text, rfl, List.prefix_rfl, Line.standsFor_plain stash htext⟩

theorem inlines_articleList (number : ℕ) (invocation : Invocation) (stash : Stash) :
    Call.Inlines document ⟨number, invocation, articleList defaultDepth, stash⟩
      ((depthOf defaultDepth invocation.arguments).map (listing document)) := by
  cases hdepth : depthOf defaultDepth invocation.arguments with
  | error fault =>
    simp only [Except.map, Call.Inlines]
    rw [run_articleList, hdepth]
  | ok depth =>
    simp only [Except.map, Call.Inlines]
    rw [run_articleList, hdepth]
    exact ⟨_, rfl, List.prefix_append _ _, Line.standsFor_nextToken stash _⟩

theorem inlines_of_mem (document : Document) (number : ℕ) {invocation : Invocation}
    {handler : Handler} (hmem : handler ∈ handlers defaultDepth)
    (hname : handler.name = invocation.name) (stash : Stash) :
    Call.Inlines document ⟨number, invocation, handler, stash⟩
      (inlined defaultDepth document invocation) := by
  simp only [handlers, List.mem_cons, List.not_mem_nil, or_false] at hmem
  unfold inlined
  rw [← hname]
  rcases hmem with rfl | rfl | rfl
  · rw [if_pos rfl]
    exact inlines_plain rfl (by decide) number invocation stash
  · have htoc : (articleList defaultDepth).name ≠ toc.name := show "article_list".toList ≠ _ by decide
    have hwikilink : (articleList defaultDepth).name ≠ wikilink.name :=
      show "article_list".toList ≠ _ by decide
    rw [if_neg htoc, if_neg hwikilink]
    exact inlines_articleList number invocation stash
  · rw [if_neg (by decide), if_pos rfl]
    exact inlines_plain rfl (by decide) number invocation stash

end Builtin

namespace Registry
variable {registry : Registry} {defaultDepth : ℕ}

/-- One line: what the expansion without a stash gives for it, its own expansion stands for. -/
theorem expandLine_inlines (hbuiltins : registry.OnlyBuiltins defaultDepth) (document : Document)
    (number : ℕ) (text : Text) (session : Session) :
    match registry.inlineLine defaultDepth document number text with
    | .error fault => (registry.expandLine document number text session).1 = .error fault
    | .ok content => ∃ line next,
        registry.expandLine document number text session = (.ok (some line), next) ∧
        session.stash.entries <+: next.stash.entries ∧ line.StandsFor next.stash content := by
  unfold inlineLine
  cases hdispatched : registry.dispatched? text with
  | none =>
    exact ⟨_, _, expandLine_of_none hdispatched session, List.prefix_rfl, Line.standsFor_source _ _⟩
  | some found =>
    obtain ⟨invocation, handler⟩ := found
    obtain ⟨hname, hmem⟩ := hbuiltins.of_dispatched? hdispatched
    have hcall := Builtin.inlines_of_mem document number hmem hname session.stash
    rw [expandLine_of_some hdispatched]
    cases hinlined : Builtin.inlined defaultDepth document invocation with
    | error cause =>
      simp only [hinlined, Call.Inlines] at hcall
      simp only [hinlined, hcall, Except.map, Except.mapError]
    | ok content =>
      simp only [hinlined, Call.Inlines] at hcall
      obtain ⟨output, hresult, hstash, hstands⟩ := hcall
      simp only [hinlined, hresult, Except.map, Except.mapError]
      exact ⟨_, _, rfl, hstash, hstands⟩

theorem expandFrom_inlines (hbuiltins : registry.OnlyBuiltins defaultDepth) (document : Document)
    (number : ℕ) (texts : List Text) (session : Session) :
    match registry.inlineFrom defaultDepth document number texts with
    | .error fault => (registry.expandFrom document number texts session).1 = .error fault
    | .ok contents => ∃ lines final,
        registry.expandFrom document number texts session = (.ok lines, final) ∧
        session.stash.entries <+: final.stash.entries ∧
        List.Forall₂ (Line.StandsFor final.stash) lines contents := by
  induction texts generalizing number session with
  | nil => exact ⟨[], session, rfl, List.prefix_rfl, .nil⟩
  | cons text texts ih =>
    have hline := expandLine_inlines hbuiltins document number text session
    unfold inlineFrom
    cases hinline : registry.inlineLine defaultDepth document number text with
    | error fault =>
      rw [hinline] at hline
      exact congrArg Prod.fst (expandFrom_cons_of_error (Prod.ext hline rfl))
    | ok content =>
      rw [hinline] at hline
      obtain ⟨line, next, hline, hnext, hstands⟩ := hline
      have hrest := ih (number + 1) next
      dsimp only
      rw [expandFrom_cons_of_ok hline]
      cases hinlines : registry.inlineFrom defaultDepth document (number + 1) texts with
      | error fault =>
        rw [hinlines] at hrest
        dsimp only [Except.map] at hrest ⊢
        rw [hrest]
      | ok contents =>
        rw [hinlines] at hrest
        obtain ⟨lines, final, hexpand, hfinal, hall⟩ := hrest
        rw [hexpand]
        -- The later lines only add to the stash, so the first one still stands for its content.
        exact ⟨line :: lines, final, rfl, hnext.trans hfinal, .cons (hstands.mono hfinal) hall⟩

end Registry

/-! ## Pages -/

theorem Page.render_eq {page : Page} {lines : List Line} (hlines : page.lines = lines.map (·.text))
    (hgenerated : page.generated = lines.map (·.generated)) :
    page.render = page.assemble (lines.map (Line.rendered page.stash)) := by
  unfold Page.render
  congr 1
  apply List.ext_getElem
  · simp [hlines]
  · intro i _ hi
    have hi : i < lines.length := by simpa using hi
    simp [Page.renderLine, Line.rendered, hlines, hgenerated, List.getElem?_eq_getElem hi]

theorem Line.map_rendered {stash : Stash} {lines : List Line} {contents : List Text}
    (h : List.Forall₂ (Line.StandsFor stash) lines contents)
    (hbound : stash.entries.length ≤ wordBound) : lines.map (Line.rendered stash) = contents := by
  induction h with
  | nil => rfl
  | cons hline _ ih => rw [List.map_cons, hline stash List.prefix_rfl hbound, ih]

/-- Rendering undoes the stash: a page with built-in directives fails or is rendered exactly as its
text with the directives written out in their lines. Texts that look like tokens, in the source or
in what the directives stand for, are never replaced. -/
theorem render_expandText (registry : Registry) (defaultDepth : ℕ)
    (hbuiltins : registry.OnlyBuiltins defaultDepth) (document : Document) (text : Text)
    (hroom : (registry.expandText document text).2.stash.entries.length < 2 ^ 64) :
    (registry.expandText document text).1.map Page.render =
      registry.inlineText defaultDepth document text := by
  have hrun := Registry.expandFrom_inlines hbuiltins document 1 text.lines {}
  unfold Registry.inlineText
  unfold Registry.expandText Registry.expand at hroom ⊢
  cases hinline : registry.inlineFrom defaultDepth document 1 text.lines with
  | error fault =>
    rw [hinline] at hrun
    dsimp only at hrun ⊢
    rw [hrun]
    rfl
  | ok contents =>
    rw [hinline] at hrun
    obtain ⟨lines, final, hexpand, -, hall⟩ := hrun
    rw [hexpand] at hroom ⊢
    have hbound : final.stash.entries.length ≤ wordBound := Nat.le_of_lt_succ hroom
    dsimp only [Except.map]
    rw [Page.render_eq rfl rfl, Line.map_rendered hall hbound]
    simp [Page.assemble]

/-- The three handlers, two of them allowed. -/
def Registry.listAndToc : Registry where
  allowed := ["article_list".toList, "toc".toList]
  handlers := Dict.ofList ((Builtin.handlers 2).map fun handler => (handler.name, handler))

/-- A page whose title and one line look like the token of its article list. -/
theorem render_expandText_copiedToken :
    let document : Document := ⟨"\x02wmstash:0\x03".toList, fun _ => []⟩
    let text := "[article_list]\r\n\x02wmstash:0\x03\n[toc]\n".toList
    Registry.listAndToc.OnlyBuiltins 2 ∧
      (Registry.listAndToc.expandText document text).2.stash.entries.length < 2 ^ 64 ∧
      (Registry.listAndToc.expandText document text).1.map Page.render =
        Registry.listAndToc.inlineText 2 document text := by
  have hsettings : Settings.registry { allowed := Registry.listAndToc.allowed, defaultDepth := 2 } =
      .ok Registry.listAndToc := rfl
  have hbuiltins := Registry.OnlyBuiltins.of_settings hsettings
  have hroom : (Registry.listAndToc.expandText ⟨"\x02wmstash:0\x03".toList, fun _ => []⟩
      "[article_list]\r\n\x02wmstash:0\x03\n[toc]\n".toList).2.stash.entries.length = 1 := rfl
  refine ⟨hbuiltins, hroom ▸ by decide, ?_⟩
  exact render_expandText _ _ hbuiltins _ _ (hroom ▸ by decide)

end WikiDirectives
