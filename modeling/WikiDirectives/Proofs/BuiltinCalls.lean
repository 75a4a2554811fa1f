import WikiDirectives.Proofs.ExpansionRun
import WikiDirectives.Settings.Basic

/-! What a call of each built-in handler returns and what it leaves in the stash. -/
namespace WikiDirectives

lemma Script.run_check {α : Type} (document : Document) (value : Except Fault α)
    (next : α → Script) (session : Session) :
    (Script.check value next).run document session = match value with
      | .ok a => (next a).run document session
      | .error fault => (.error fault, session) := by
  cases value <;> rfl

namespace Builtin

/-- The three handlers, with a depth for article lists that do not set one. -/
def handlers (defaultDepth : ℕ) : List Handler := [toc, articleList defaultDepth, wikilink]

/-- The HTML of the articles below a document, down to a depth. -/
def listing (document : Document) (depth : ℕ) : Text :=
  Html.articleList document.title
    ((document.children (depth + 1)).map (Article.pruned (depth + 1))) (depth + 1)

variable {document : Document} {number : ℕ} {invocation : Invocation} {stash : Stash}

/-- A handler that takes no arguments returns its text and leaves the stash alone. -/
theorem run_plain {handler : Handler} {text : Text}
    (h : handler.script = fun args _ => .check (args.expectOnly []) fun _ => .line text) :
    Call.run document ⟨number, invocation, handler, stash⟩ =
      ((invocation.arguments.expectOnly []).map fun _ => .line text, { stash }) := by
  rw [Call.run, h, Script.run_check]
  cases invocation.arguments.expectOnly [] <;> rfl

/-- An article list is put into the stash, and the line is its token. -/
theorem run_articleList_script (defaultDepth : ℕ) (args : Arguments) (document : Document) (number : ℕ)
    (session : Session) :
    ((articleList defaultDepth).script args ⟨document.title, number⟩).run document session =
      match depthOf defaultDepth args with
      | .error fault => (.error fault, session)
      | .ok depth => (.ok (.line session.stash.nextToken),
          { stash := session.stash.put (listing document depth)
            events := session.events ++ [.asked (depth + 1)] }) := by
  change Script.run document (.check (depthOf defaultDepth args) _) _ = _
  rw [Script.run_check]
  cases depthOf defaultDepth args <;> rfl

theorem run_articleList {defaultDepth : ℕ} :
    Call.run document ⟨number, invocation, articleList defaultDepth, stash⟩ =
      match depthOf defaultDepth invocation.arguments with
      | .error fault => (.error fault, { stash })
      | .ok depth => (.ok (.line stash.nextToken),
          { stash := stash.put (listing document depth), events := [.asked (depth + 1)] }) :=
  run_articleList_script defaultDepth invocation.arguments document number { stash }

/-- What a call of a built-in handler can do, the same with any stash: fail, return a text without
tokens, or put a list into the stash and return its token. -/
theorem run_cases {defaultDepth : ℕ} {handler : Handler} (hmem : handler ∈ handlers defaultDepth)
    (document : Document) (number : ℕ) (invocation : Invocation) :
    (∃ fault, ∀ stash,
      Call.run document ⟨number, invocation, handler, stash⟩ = (.error fault, { stash })) ∨
    (∃ text, '\x02' ∉ text ∧ ∀ stash,
      Call.run document ⟨number, invocation, handler, stash⟩ = (.ok (.line text), { stash })) ∨
    ∃ depth, ∀ stash, Call.run document ⟨number, invocation, handler, stash⟩ =
      (.ok (.line stash.nextToken),
        { stash := stash.put (listing document depth), events := [.asked (depth + 1)] }) := by
  have hplain : ∀ {handler : Handler} {text : Text},
      (handler.script = fun args _ => .check (args.expectOnly []) fun _ => .line text) →
      (∃ fault, ∀ stash,
        Call.run document ⟨number, invocation, handler, stash⟩ = (.error fault, { stash })) ∨
      ∀ stash, Call.run document ⟨number, invocation, handler, stash⟩ =
        (.ok (.line text), { stash }) := by
    intro handler text hscript
    simp only [run_plain hscript]
    cases invocation.arguments.expectOnly [] with
    | error fault => exact .inl ⟨fault, fun _ => rfl⟩
    | ok _ => exact .inr fun _ => rfl
  simp only [handlers, List.mem_cons, List.not_mem_nil, or_false] at hmem
  rcases hmem with rfl | rfl | rfl
  · exact (hplain rfl).imp_right fun h => .inl ⟨_, by decide, h⟩
  · simp only [run_articleList]
    cases depthOf defaultDepth invocation.arguments with
    | error fault => exact .inl ⟨fault, fun _ => rfl⟩
    | ok depth => exact .inr (.inr ⟨depth, fun _ => rfl⟩)
  · exact (hplain rfl).imp_right fun h => .inl ⟨_, by decide, h⟩

end Builtin

namespace Registry

/-- Every handler of the registry is a built-in one, under its own name. -/
def OnlyBuiltins (registry : Registry) (defaultDepth : ℕ) : Prop :=
  ∀ name handler, registry.handlers.get? name = some handler →
    handler.name = name ∧ handler ∈ Builtin.handlers defaultDepth

namespace OnlyBuiltins
variable {registry next : Registry} {defaultDepth : ℕ} {handler : Handler}

theorem of_dispatched? (h : registry.OnlyBuiltins defaultDepth) {text : Text}
    {invocation : Invocation} (hsome : registry.dispatched? text = some (invocation, handler)) :
    handler.name = invocation.name ∧ handler ∈ Builtin.handlers defaultDepth := by
  have hlookup := (dispatched?_eq_some_iff.mp hsome).2
  unfold lookup? at hlookup
  split_ifs at hlookup
  exact h _ _ hlookup

theorem register (h : registry.OnlyBuiltins defaultDepth)
    (hmem : handler ∈ Builtin.handlers defaultDepth) :
    (registry.register handler).2.OnlyBuiltins defaultDepth := by
  unfold Registry.register
  split_ifs
  · exact h
  · exact h
  · intro name other hother
    rw [Dict.get?_insert] at hother
    split_ifs at hother with hname
    · obtain rfl := Option.some.inj hother
      exact ⟨hname.symm, hmem⟩
    · exact h name other hother

theorem registerAll (h : registry.OnlyBuiltins defaultDepth) {handlers : List Handler}
    (hmem : ∀ handler ∈ handlers, handler ∈ Builtin.handlers defaultDepth)
    (hnext : registry.registerAll handlers = .ok next) : next.OnlyBuiltins defaultDepth := by
  induction handlers generalizing registry with
  | nil =>
    obtain rfl := Except.ok.inj hnext
    exact h
  | cons handler handlers ih =>
    have hmiddle := h.register (hmem handler List.mem_cons_self)
    rw [Registry.registerAll] at hnext
    rcases hfirst : registry.register handler with ⟨fault | _, middle⟩
    · simp [hfirst] at hnext
    · rw [hfirst] at hmiddle hnext
      exact ih hmiddle (fun other hother => hmem other (List.mem_cons_of_mem _ hother)) hnext

theorem of_settings {settings : Settings} (h : settings.registry = .ok registry) :
    registry.OnlyBuiltins settings.defaultDepth := by
  have hempty : OnlyBuiltins { allowed := settings.allowed } settings.defaultDepth := by
    intro name handler hget
    simp [Dict.get?_empty] at hget
  exact hempty.registerAll (fun handler hmem => hmem) h

end OnlyBuiltins

end Registry

end WikiDirectives
