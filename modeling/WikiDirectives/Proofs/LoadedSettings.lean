import WikiDirectives.Proofs.FailedRuns
import WikiDirectives.Proofs.LegalDepths
import WikiDirectives.Proofs.SettingsFile

/-! What settings that could be loaded are good for. Whatever they come from they have been checked, and
then the built-in handlers can be registered and fail only for what is written behind the name of a
directive. -/
namespace WikiDirectives

/-! ## Loaded settings are checked -/

namespace Settings
variable {reader : SettingsReader} {workspace : Workspace} {settings loaded : Settings}

lemma checked_eq_ok (h : checked settings = .ok loaded) :
    loaded = settings ∧ settings.check = .ok () := by
  unfold checked at h
  cases hcheck : settings.check with
  | error reason => simp [hcheck] at h
  | ok _ =>
    rw [hcheck] at h
    exact ⟨(Except.ok.inj h).symm, rfl⟩

lemma check_of_checked (h : checked settings = .ok loaded) : loaded.check = .ok () := by
  obtain ⟨rfl, hcheck⟩ := checked_eq_ok h
  exact hcheck

theorem check_of_ofFile {path : Path} (h : ofFile reader workspace path = .ok settings) :
    settings.check = .ok () := by
  unfold ofFile at h
  cases hread : (workspace.read path).mapError SettingsError.file with
  | error error => simp [hread, bind, Except.bind] at h
  | ok content =>
    simp only [hread, bind, Except.bind] at h
    cases hparse : reader.source? content with
    | none => simp [hparse] at h
    | some source =>
      simp only [hparse] at h
      split at h
      · simp at h
      · exact check_of_checked h

/-- The three ways to settings: a file that is named, a file that is found, and no file. -/
theorem check_of_base {given : Option Path} (h : base reader workspace given = .ok settings) :
    settings.check = .ok () := by
  unfold base at h
  cases given with
  | some path =>
    dsimp only at h
    split_ifs at h
    exact check_of_ofFile h
  | none =>
    dsimp only at h
    cases hdiscover : discover workspace with
    | some path =>
      rw [hdiscover] at h
      exact check_of_ofFile h
    | none =>
      rw [hdiscover] at h
      obtain rfl := Except.ok.inj h
      rfl

theorem check_of_load {given : Option Path} {overrides : Option Overrides}
    (h : load reader workspace given overrides = .ok settings) : settings.check = .ok () := by
  unfold load at h
  cases hbase : base reader workspace given with
  | error error => simp [hbase, bind, Except.bind] at h
  | ok found =>
    simp only [hbase, bind, Except.bind] at h
    cases overrides with
    | none =>
      obtain rfl := Except.ok.inj h
      exact check_of_base hbase
    | some overrides => exact check_of_checked h

/-- The check lets just those depths pass that the handler takes, but for zero. -/
theorem defaultDepth_of_check (h : settings.check = .ok ()) :
    0 < settings.defaultDepth ∧ settings.defaultDepth ≤ Builtin.maxDepth := by
  unfold check at h
  cases hnames : checkNames settings.allowed with
  | error reason => simp [hnames, bind, Except.bind] at h
  | ok _ =>
    simp only [hnames, bind, Except.bind, checkDepth] at h
    split_ifs at h with hzero hdepth
    exact ⟨Nat.pos_of_ne_zero hzero, hdepth⟩

/-- The three built-in names are names and differ, so that each handler finds its name free. -/
lemma exists_registry (settings : Settings) : ∃ registry, settings.registry = .ok registry :=
  ⟨_, rfl⟩

end Settings

/-! ## Calls of built-in handlers -/

namespace Builtin
variable {defaultDepth : ℕ} {handler : Handler} {invocation : Invocation}

lemma expectOnly_empty (accepted : List Text) : Arguments.expectOnly .empty accepted = .ok () := rfl

lemma depthOf_empty (h : defaultDepth ≤ maxDepth) :
    depthOf defaultDepth .empty = .ok defaultDepth := by
  rw [depthOf_eq_ok_iff]
  exact ⟨fun name hname => by simp [Dict.contains, Dict.get?_empty] at hname, .absent rfl, h⟩

/-- A directive without arguments gives every built-in handler all that it needs. -/
theorem exists_output (hmem : handler ∈ handlers defaultDepth) (hdepth : defaultDepth ≤ maxDepth)
    (hfragment : invocation.fragment = none) (document : Document) (number : ℕ) (stash : Stash) :
    ∃ output, (Call.run document ⟨number, invocation, handler, stash⟩).1 = .ok output := by
  have hargs : invocation.arguments = .empty := by rw [Invocation.arguments, hfragment]
  simp only [handlers, List.mem_cons, List.not_mem_nil, or_false] at hmem
  rcases hmem with rfl | rfl | rfl
  · rw [run_plain rfl, hargs, expectOnly_empty]
    exact ⟨_, rfl⟩
  · rw [run_articleList, hargs, depthOf_empty hdepth]
    exact ⟨_, rfl⟩
  · rw [run_plain rfl, hargs, expectOnly_empty]
    exact ⟨_, rfl⟩

/-- A built-in handler asks the document for one level more than a depth that it takes, or not at all. -/
theorem depths_run (hmem : handler ∈ handlers defaultDepth) (document : Document) (number : ℕ)
    (stash : Stash) :
    ∀ depth ∈ (Call.run document ⟨number, invocation, handler, stash⟩).2.depths,
      1 ≤ depth ∧ depth ≤ maxDepth + 1 := by
  simp only [handlers, List.mem_cons, List.not_mem_nil, or_false] at hmem
  rcases hmem with rfl | rfl | rfl
  · rw [run_plain rfl]
    simp [Session.depths]
  · rw [run_articleList]
    cases hdepth : depthOf defaultDepth invocation.arguments with
    | error fault => simp [Session.depths]
    | ok depth =>
      have hle : depth ≤ maxDepth := (depthOf_eq_ok_iff.mp hdepth).le
      simp [Session.depths, hle]
  · rw [run_plain rfl]
    simp [Session.depths]

end Builtin

/-! ## Runs -/

namespace Registry
variable {registry : Registry} {document : Document} {defaultDepth : ℕ}

/-- Every depth that a line adds is one that the call made for it asks for. -/
theorem depths_expandLine {legal : ℕ → Prop} {text : Text}
    (hcall : ∀ call : Call, registry.dispatched? text = some (call.invocation, call.handler) →
      ∀ depth ∈ (call.run document).2.depths, legal depth)
    (number : ℕ) {session : Session} (hsession : ∀ depth ∈ session.depths, legal depth) :
    ∀ depth ∈ (registry.expandLine document number text session).2.depths, legal depth := by
  cases hdispatched : registry.dispatched? text with
  | none =>
    rw [expandLine_of_none hdispatched, depths_passing]
    exact hsession
  | some found =>
    rw [expandLine_of_call ⟨number, found.1, found.2, session.stash⟩ rfl rfl hdispatched]
    intro depth hdepth
    rw [Call.depths_leaves, List.mem_append] at hdepth
    rcases hdepth with hdepth | hdepth
    · exact hsession depth hdepth
    · exact hcall _ hdispatched depth hdepth

/-- What holds of the depths that the calls ask for holds of all depths of a run, also of one that
fails. -/
theorem depths_expandFrom {legal : ℕ → Prop}
    (hcall : ∀ text (call : Call),
      registry.dispatched? text = some (call.invocation, call.handler) →
        ∀ depth ∈ (call.run document).2.depths, legal depth)
    (number : ℕ) (texts : List Text) {session : Session}
    (hsession : ∀ depth ∈ session.depths, legal depth) :
    ∀ depth ∈ (registry.expandFrom document number texts session).2.depths, legal depth := by
  induction texts generalizing number session with
  | nil => exact hsession
  | cons text texts ih =>
    have hline := depths_expandLine (hcall text) number hsession
    rcases hexpand : registry.expandLine document number text session with ⟨fault | line?, next⟩
    · rw [hexpand] at hline
      rw [expandFrom_cons_of_error hexpand]
      exact hline
    · rw [hexpand] at hline
      rw [expandFrom_cons_of_ok hexpand]
      exact ih (number + 1) hline

namespace OnlyBuiltins

theorem depths_expandText (h : registry.OnlyBuiltins defaultDepth) (document : Document)
    (text : Text) :
    ∀ depth ∈ (registry.expandText document text).2.depths,
      1 ≤ depth ∧ depth ≤ Builtin.maxDepth + 1 := by
  refine depths_expandFrom (fun line call hdispatched => ?_) 1 text.lines (by simp [Session.depths])
  exact Builtin.depths_run (h.of_dispatched? hdispatched).2 document call.line call.stash

/-- A text fails at a line with a directive that has arguments. -/
theorem exists_fragment_of_error (h : registry.OnlyBuiltins defaultDepth)
    (hdepth : defaultDepth ≤ Builtin.maxDepth) {text : Text} {fault : LineFault} {final : Session}
    (hrun : registry.expandText document text = (.error fault, final)) :
    ∃ front line back fragment, text.lines = front ++ line :: back ∧
      fault.line = front.length + 1 ∧
      Invocation.detect line = some ⟨fault.name, some fragment⟩ := by
  obtain ⟨before, rest, line, middle, call, rfl, hends, hhead, -, hfails⟩ :=
    expandText_eq_error_iff.mp hrun
  obtain ⟨back, hrest⟩ := List.head?_eq_some_iff.mp hhead
  have hbuiltin := (h.of_dispatched? hfails.dispatched).2
  have hdetect := (dispatched?_eq_some_iff.mp hfails.dispatched).1
  cases hfragment : call.invocation.fragment with
  | none =>
    obtain ⟨output, houtput⟩ :=
      Builtin.exists_output hbuiltin hdepth hfragment document call.line call.stash
    exact absurd (houtput.symm.trans hfails.result) (by simp)
  | some fragment =>
    refine ⟨before.lines, line, back, fragment, ?_, hfails.number, ?_⟩
    · rw [Text.lines_append hends, hrest]
    · rw [hdetect, hfails.name, ← hfragment]

end OnlyBuiltins

end Registry

/-- Loaded settings make no directive without arguments fail. However they were found and overridden,
they pass the check, the built-in handlers can be registered for them, and a text fails only at a line
whose directive has arguments: if none has, it is expanded. In every run, also in one that fails, the
document is asked for no more than seventeen levels and no less than one. -/
theorem Settings.load_safe (reader : SettingsReader) (workspace : Workspace) (given : Option Path)
    (overrides : Option Overrides) (settings : Settings)
    (h : load reader workspace given overrides = .ok settings) :
    settings.check = .ok () ∧ ∃ registry, settings.registry = .ok registry ∧
      ∀ document text,
        (∀ fault final, registry.expandText document text = (.error fault, final) →
          ∃ front line back fragment, text.lines = front ++ line :: back ∧
            fault.line = front.length + 1 ∧
            Invocation.detect line = some ⟨fault.name, some fragment⟩) ∧
        ((∀ line ∈ text.lines, ∀ invocation, Invocation.detect line = some invocation →
            invocation.fragment = none) →
          ∃ page final, registry.expandText document text = (.ok page, final)) ∧
        ∀ depth ∈ (registry.expandText document text).2.depths, 1 ≤ depth ∧ depth ≤ 17 := by
  have hcheck := check_of_load h
  obtain ⟨-, hdepth⟩ := defaultDepth_of_check hcheck
  obtain ⟨registry, hregistry⟩ := settings.exists_registry
  have hbuiltins := Registry.OnlyBuiltins.of_settings hregistry
  refine ⟨hcheck, registry, hregistry, fun document text => ⟨fun fault final hrun => ?_, ?_, ?_⟩⟩
  · exact hbuiltins.exists_fragment_of_error hdepth hrun
  · intro hplain
    rcases hrun : registry.expandText document text with ⟨fault | page, final⟩
    · obtain ⟨front, line, back, fragment, hlines, -, hdetect⟩ :=
        hbuiltins.exists_fragment_of_error hdepth hrun
      exact absurd (hplain line (hlines ▸ by simp) _ hdetect) (by simp)
    · exact ⟨page, final, rfl⟩
  · exact hbuiltins.depths_expandText document text

/-- The greatest depth that passes the check, with names given by hand: a list without a depth asks for
seventeen levels, and the depth behind the next name is refused. -/
theorem Settings.load_safe_greatest :
    let workspace := CommandLine.sampleWiki "[article_list]\ndefault_depth = 16\n"
    let overrides : Overrides := { allowed := some ["toc".toList, "article_list".toList] }
    let settings : Settings :=
      { allowed := ["toc".toList, "article_list".toList], defaultDepth := 16,
        sourceDir := "/wiki".toList, origin := some "/wiki/wm.toml".toList }
    let document : Document := ⟨"Home".toList, fun _ => []⟩
    let text : Text := "[toc]\n[article_list]\n[article_list depth:17]\n".toList
    let fault : LineFault :=
      ⟨3, "article_list".toList, .invalidArgument "depth".toList "17".toList (.depthAbove 16)⟩
    load .toml workspace none (some overrides) = .ok settings ∧ ∃ registry,
      settings.registry = .ok registry ∧
      (registry.expandText document text).2.depths = [17] ∧
      (registry.expandText document text).1 = .error fault ∧
      ∃ page final, registry.expandText document "[toc]\n[article_list]\n".toList = (.ok page, final) := by
  intro workspace overrides settings document text fault
  have hload : load .toml workspace none (some overrides) = .ok settings := by decide +kernel
  obtain ⟨-, registry, hregistry, hsafe⟩ :=
    load_safe .toml workspace none (some overrides) settings hload
  obtain ⟨-, hplain, -⟩ := hsafe document "[toc]\n[article_list]\n".toList
  refine ⟨hload, registry, hregistry, ?_, ?_, hplain (by decide +kernel)⟩
  all_goals obtain rfl := Except.ok.inj hregistry
  · decide +kernel
  · decide +kernel

end WikiDirectives
