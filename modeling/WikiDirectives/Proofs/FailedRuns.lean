import WikiDirectives.Proofs.LineEndings

/-! Runs that fail. A run fails at the first line whose handler fails on the stash that the lines before
it leave, and nothing behind that line matters to it. -/
namespace WikiDirectives

/-! ## Line numbers -/

namespace Text

/-- A text after which a line begins: an empty one, or one with a line feed at its end. -/
def EndsLine (s : Text) : Prop := ∀ c ∈ s.getLast?, c = '\n'

variable {s t : Text} {c : Char} {line : Text} {front back : List Text}

lemma endsLine_nil : EndsLine [] := by simp [EndsLine]

lemma endsLine_newline_cons : EndsLine ('\n' :: s) ↔ EndsLine s := by
  cases s <;> simp [EndsLine]

lemma endsLine_cons_of_ne_nil (hs : s ≠ []) : EndsLine (c :: s) ↔ EndsLine s := by
  rw [EndsLine, List.getLast?_cons_of_ne_nil hs, EndsLine]

lemma ne_nil_of_endsLine_cons (h : EndsLine (c :: s)) (hc : c ≠ '\n') : s ≠ [] := by
  rintro rfl
  exact hc (h c rfl)

lemma lines_ne_nil (hs : s ≠ []) : s.lines ≠ [] := fun hlines => hs (lines_eq_nil_iff.mp hlines)

/-- The lines of two texts follow one another if the second text begins a line. -/
theorem lines_append (h : EndsLine s) (t : Text) : lines (s ++ t) = s.lines ++ t.lines := by
  induction s using lines_induction with
  | nil => rfl
  | newline s ih => exact congrArg ([] :: ·) (ih (endsLine_newline_cons.mp h))
  | return_newline s ih =>
    rw [endsLine_cons_of_ne_nil (List.cons_ne_nil _ _), endsLine_newline_cons] at h
    exact congrArg ([] :: ·) (ih h)
  | other c s hc hs ih =>
    have hne := ne_nil_of_endsLine_cons h hc
    obtain ⟨first, rest, hfirst⟩ := List.exists_cons_of_ne_nil (lines_ne_nil hne)
    have hst : ∀ u, c = '\r' → s ++ t ≠ '\n' :: u := by
      rintro u hreturn hu
      obtain ⟨d, s, rfl⟩ := List.exists_cons_of_ne_nil hne
      exact hs s hreturn (by rw [(List.cons.inj hu).1])
    have hboth := ih ((endsLine_cons_of_ne_nil hne).mp h)
    rw [hfirst] at hboth
    rw [List.cons_append, lines.eq_4 c _ hc hst, lines.eq_4 c s hc hs, hboth, hfirst]
    rfl

/-- A text has as many lines as line feeds if a line begins after it. -/
theorem length_lines (h : EndsLine s) : s.lines.length = s.count '\n' := by
  induction s using lines_induction with
  | nil => rfl
  | newline s ih => simp [lines, ih (endsLine_newline_cons.mp h)]
  | return_newline s ih =>
    rw [endsLine_cons_of_ne_nil (List.cons_ne_nil _ _), endsLine_newline_cons] at h
    simp [lines, ih h]
  | other c s hc hs ih =>
    have hne := ne_nil_of_endsLine_cons h hc
    obtain ⟨first, rest, hfirst⟩ := List.exists_cons_of_ne_nil (lines_ne_nil hne)
    have hcount := ih ((endsLine_cons_of_ne_nil hne).mp h)
    rw [hfirst] at hcount
    rw [lines.eq_4 c s hc hs, hfirst, List.count_cons_of_ne (by simpa using hc), ← hcount]
    rfl

/-- Each line of a text begins somewhere in the text, behind the lines before it. -/
theorem exists_of_lines_eq (h : s.lines = front ++ line :: back) :
    ∃ before rest, s = before ++ rest ∧ EndsLine before ∧ before.lines = front ∧
      rest.lines = line :: back := by
  induction s using lines_induction generalizing front with
  | nil => simp [lines] at h
  | newline s ih =>
    cases front with
    | nil => exact ⟨[], _, rfl, endsLine_nil, rfl, h⟩
    | cons first front =>
      obtain ⟨rfl, hrest⟩ := List.cons.inj h
      obtain ⟨before, rest, rfl, hends, rfl, hback⟩ := ih hrest
      exact ⟨'\n' :: before, rest, rfl, endsLine_newline_cons.mpr hends, rfl, hback⟩
  | return_newline s ih =>
    cases front with
    | nil => exact ⟨[], _, rfl, endsLine_nil, rfl, h⟩
    | cons first front =>
      obtain ⟨rfl, hrest⟩ := List.cons.inj h
      obtain ⟨before, rest, rfl, hends, rfl, hback⟩ := ih hrest
      refine ⟨'\r' :: '\n' :: before, rest, rfl, ?_, rfl, hback⟩
      rw [endsLine_cons_of_ne_nil (List.cons_ne_nil _ _), endsLine_newline_cons]
      exact hends
  | other c s hc hs ih =>
    cases front with
    | nil => exact ⟨[], _, rfl, endsLine_nil, rfl, h⟩
    | cons first front =>
      rw [lines.eq_4 c s hc hs] at h
      cases hlines : lines s with
      | nil => simp [hlines] at h
      | cons start others =>
        rw [hlines] at h
        obtain ⟨rfl, rfl⟩ := List.cons.inj h
        have hsplit : lines s = (start :: front) ++ line :: back := hlines
        obtain ⟨before, rest, rfl, hends, hbefore, hback⟩ := ih hsplit
        have hne : before ≠ [] := by
          rintro rfl
          simp [lines] at hbefore
        have hfeed : ∀ u, c = '\r' → before ≠ '\n' :: u := by
          rintro u hreturn rfl
          exact hs _ hreturn rfl
        refine ⟨c :: before, rest, rfl, (endsLine_cons_of_ne_nil hne).mpr hends, ?_, hback⟩
        rw [lines.eq_4 c before hc hfeed, hbefore]

end Text

/-! ## The first failure -/

namespace Registry
variable {registry : Registry} {document : Document} {number : ℕ} {text : Text}
  {front back texts : List Text} {session middle final : Session} {lines : List Line}
  {fault : LineFault}

/-- A line fails just if the handler called for it does. -/
theorem expandLine_eq_error_iff :
    registry.expandLine document number text session = (.error fault, final) ↔
      ∃ call : Call, call.line = number ∧ call.stash = session.stash ∧
        registry.dispatched? text = some (call.invocation, call.handler) ∧
        (call.run document).1 = .error fault.cause ∧ fault.line = number ∧
        fault.name = call.invocation.name ∧ final = call.leaves document session := by
  constructor
  · intro h
    cases hdispatched : registry.dispatched? text with
    | none => simp [expandLine_of_none hdispatched] at h
    | some found =>
      set call : Call := ⟨number, found.1, found.2, session.stash⟩
      have hexpand : registry.expandLine document number text session = _ :=
        expandLine_of_call call rfl rfl hdispatched
      rw [hexpand, Prod.mk.injEq] at h
      refine ⟨call, rfl, rfl, rfl, ?_⟩
      cases hrun : (call.run document).1 with
      | ok output => simp [hrun, Except.map, Except.mapError] at h
      | error cause =>
        obtain ⟨hfault, rfl⟩ := h
        obtain rfl : ⟨number, call.invocation.name, cause⟩ = fault := by
          simpa [hrun, Except.map, Except.mapError] using hfault
        exact ⟨rfl, rfl, rfl, rfl⟩
  · rintro ⟨call, hline, hstash, hdispatched, hrun, hnumber, hname, rfl⟩
    rw [expandLine_of_call call hline hstash hdispatched, hrun, ← hnumber, ← hname]
    rfl

/-- A run over lines that succeed goes on with the session that they leave. -/
theorem expandFrom_append (h : registry.expandFrom document number front session = (.ok lines, middle))
    (texts : List Text) :
    registry.expandFrom document number (front ++ texts) session =
      ((registry.expandFrom document (number + front.length) texts middle).1.map (lines ++ ·),
        (registry.expandFrom document (number + front.length) texts middle).2) := by
  induction front generalizing number session lines with
  | nil =>
    obtain ⟨rfl, rfl⟩ : [] = lines ∧ session = middle := by simpa [expandFrom] using h
    rw [List.nil_append, List.length_nil, Nat.add_zero]
    rcases registry.expandFrom document number texts session with ⟨_ | _, _⟩ <;> rfl
  | cons text front ih =>
    obtain ⟨line?, next, rest, hline, hrest, rfl⟩ := exists_of_expandFrom_cons h
    have hnumber : number + 1 + front.length = number + (text :: front).length := by
      rw [List.length_cons]
      omega
    rw [List.cons_append, expandFrom_cons_of_ok hline, ih hrest, hnumber]
    rcases registry.expandFrom document (number + (text :: front).length) texts middle with ⟨_ | _, _⟩
    · rfl
    · simp [Except.map]

/-- A run fails just if one of its lines does after those before it succeed. -/
theorem expandFrom_eq_error_iff :
    registry.expandFrom document number texts session = (.error fault, final) ↔
      ∃ front text back lines middle, texts = front ++ text :: back ∧
        registry.expandFrom document number front session = (.ok lines, middle) ∧
        registry.expandLine document (number + front.length) text middle = (.error fault, final) := by
  constructor
  · intro h
    induction texts generalizing number session with
    | nil => simp [expandFrom] at h
    | cons text texts ih =>
      rcases hline : registry.expandLine document number text session with ⟨cause | line?, next⟩
      · rw [expandFrom_cons_of_error hline] at h
        obtain ⟨rfl, rfl⟩ : cause = fault ∧ next = final := by simpa using h
        exact ⟨[], text, texts, [], session, rfl, rfl, hline⟩
      · have hrest : registry.expandFrom document (number + 1) texts next = (.error fault, final) := by
          rw [expandFrom_cons_of_ok hline] at h
          rcases hrest : registry.expandFrom document (number + 1) texts next with ⟨_ | _, _⟩
          · simpa [hrest, Except.map] using h
          · simp [hrest, Except.map] at h
        obtain ⟨front, other, back, lines, middle, rfl, hfront, hother⟩ := ih hrest
        refine ⟨text :: front, other, back, line?.toList ++ lines, middle, rfl, ?_, ?_⟩
        · rw [expandFrom_cons_of_ok hline, hfront]
          rfl
        · rwa [List.length_cons, Nat.add_comm front.length 1, ← Nat.add_assoc]
  · rintro ⟨front, text, back, lines, middle, rfl, hfront, hline⟩
    rw [expandFrom_append hfront, expandFrom_cons_of_error hline]
    rfl

/-- The course of a run is what the run does. -/
theorem Course.expandFrom_eq {outputs : List (Option Line)} {calls : List Call}
    (h : Course registry document number texts session outputs calls final) :
    registry.expandFrom document number texts session = (.ok outputs.reduceOption, final) := by
  induction h with
  | done => rfl
  | pass undispatched _ ih =>
    rw [expandFrom_cons_of_ok (expandLine_of_none undispatched _), ih]
    rfl
  | @call number text texts session outputs calls final output call line stash dispatched result _ ih =>
    have hline : registry.expandLine document number text session = _ :=
      expandLine_of_call call line stash dispatched
    rw [result] at hline
    subst line
    rw [expandFrom_cons_of_ok hline, Call.leaves, ih]
    cases output <;> rfl

/-- A run fails at a line: the lines before it have a course, and the handler called for it, with the
stash that they leave, fails. The fault is that of the handler, with the number of the line and the name
of the directive in it. -/
structure FailsAt (registry : Registry) (document : Document) (front : List Text) (text : Text)
    (session middle : Session) (call : Call) (fault : LineFault) (final : Session) : Prop where
  before : ∃ outputs calls, Course registry document 1 front session outputs calls middle
  line : call.line = front.length + 1
  stash : call.stash = middle.stash
  dispatched : registry.dispatched? text = some (call.invocation, call.handler)
  result : (call.run document).1 = .error fault.cause
  number : fault.line = front.length + 1
  name : fault.name = call.invocation.name
  left : final = call.leaves document middle

lemma failsAt_iff : (∃ call, FailsAt registry document front text session middle call fault final) ↔
    (∃ lines, registry.expand document front session = (.ok lines, middle)) ∧
      registry.expandLine document (1 + front.length) text middle = (.error fault, final) := by
  rw [Nat.add_comm, expandLine_eq_error_iff]
  constructor
  · rintro ⟨call, ⟨outputs, calls, hcourse⟩, hline, hstash, hdispatched, hresult, hnumber, hname, hleft⟩
    exact ⟨⟨_, hcourse.expandFrom_eq⟩, call, hline, hstash, hdispatched, hresult, hnumber, hname, hleft⟩
  · rintro ⟨⟨lines, hfront⟩, call, hline, hstash, hdispatched, hresult, hnumber, hname, hleft⟩
    obtain ⟨outputs, calls, hcourse, -⟩ := exists_course_of_expandFrom hfront
    exact ⟨call, ⟨outputs, calls, hcourse⟩, hline, hstash, hdispatched, hresult, hnumber, hname, hleft⟩

/-- A run fails just if it fails at one of its lines. -/
theorem expand_eq_error_iff :
    registry.expand document texts session = (.error fault, final) ↔
      ∃ front text back middle call, texts = front ++ text :: back ∧
        FailsAt registry document front text session middle call fault final := by
  rw [expand, expandFrom_eq_error_iff]
  constructor
  · rintro ⟨front, text, back, lines, middle, htexts, hfront, hline⟩
    obtain ⟨call, hfails⟩ := failsAt_iff.mpr ⟨⟨lines, hfront⟩, hline⟩
    exact ⟨front, text, back, middle, call, htexts, hfails⟩
  · rintro ⟨front, text, back, middle, call, htexts, hfails⟩
    obtain ⟨⟨lines, hfront⟩, hline⟩ := failsAt_iff.mp ⟨call, hfails⟩
    exact ⟨front, text, back, lines, middle, htexts, hfront, hline⟩

/-- The number in the fault tells the line that the run failed at. -/
theorem exists_failsAt (h : registry.expand document (front ++ text :: back) session = (.error fault, final))
    (hnumber : fault.line = front.length + 1) :
    ∃ middle call, FailsAt registry document front text session middle call fault final := by
  obtain ⟨front', text', back', middle, call, htexts, hfails⟩ := expand_eq_error_iff.mp h
  have hlength : front.length = front'.length := by
    have := hfails.number
    omega
  obtain ⟨rfl, htail⟩ := List.append_inj htexts hlength
  obtain ⟨rfl, -⟩ := List.cons.inj htail
  exact ⟨middle, call, hfails⟩

/-- A text fails at the line that stands behind as many line feeds as there are lines before it. -/
theorem expandText_eq_error_iff :
    registry.expandText document text = (.error fault, final) ↔
      ∃ before rest line middle call, text = before ++ rest ∧ before.EndsLine ∧
        rest.lines.head? = some line ∧ fault.line = before.count '\n' + 1 ∧
        FailsAt registry document before.lines line {} middle call fault final := by
  have hexpand : registry.expandText document text = (.error fault, final) ↔
      registry.expand document text.lines {} = (.error fault, final) := by
    unfold expandText
    rcases registry.expand document text.lines {} with ⟨_ | _, _⟩ <;> simp [Except.map]
  rw [hexpand, expand_eq_error_iff]
  constructor
  · rintro ⟨front, line, back, middle, call, hlines, hfails⟩
    obtain ⟨before, rest, rfl, hends, rfl, hrest⟩ := Text.exists_of_lines_eq hlines
    refine ⟨before, rest, line, middle, call, rfl, hends, by rw [hrest]; rfl, ?_, hfails⟩
    rw [hfails.number, Text.length_lines hends]
  · rintro ⟨before, rest, line, middle, call, rfl, hends, hline, -, hfails⟩
    obtain ⟨back, hrest⟩ := List.head?_eq_some_iff.mp hline
    exact ⟨before.lines, line, back, middle, call, by rw [Text.lines_append hends, hrest], hfails⟩

end Registry

/-! ## Built-in handlers -/

/-- A built-in handler that fails has put nothing into the stash and asked the document nothing. -/
theorem Builtin.run_of_error {defaultDepth : ℕ} {document : Document} {call : Call} {cause : Fault}
    (hmem : call.handler ∈ handlers defaultDepth) (h : (call.run document).1 = .error cause) :
    (call.run document).2 = { stash := call.stash } := by
  obtain ⟨number, invocation, handler, stash⟩ := call
  obtain ⟨fault, hrun⟩ | ⟨text, -, hrun⟩ | ⟨depth, hrun⟩ :=
    run_cases hmem document number invocation
  · rw [hrun]
  · rw [hrun]
  · simp [hrun] at h

lemma Call.depths_leaves (document : Document) (call : Call) (session : Session) :
    (call.leaves document session).depths = session.depths ++ (call.run document).2.depths := by
  simp [Call.leaves, Session.depths]

namespace Registry

/-- How runs fail. A run fails at the first line whose handler fails, with that handler's fault, the
number of the line and the name as it is written there; the fault and the session that is left do not
depend on the lines behind it. If the handler is a built-in one, the stash is left as the lines before
leave it, and the document is not asked for that line. In a text, the number is one more than the line
feeds before the line. -/
theorem expand_fails (registry : Registry) (document : Document) :
    (∀ texts session fault final,
      registry.expand document texts session = (.error fault, final) ↔
        ∃ front text back middle call, texts = front ++ text :: back ∧
          FailsAt registry document front text session middle call fault final) ∧
    (∀ front text back session fault final,
      registry.expand document (front ++ text :: back) session = (.error fault, final) →
      fault.line = front.length + 1 →
        (∀ others,
          registry.expand document (front ++ text :: others) session = (.error fault, final)) ∧
        ∀ invocation handler defaultDepth, registry.dispatched? text = some (invocation, handler) →
          handler ∈ Builtin.handlers defaultDepth →
            ∃ lines middle, registry.expand document front session = (.ok lines, middle) ∧
              final.stash = middle.stash ∧ final.depths = middle.depths) ∧
    ∀ text fault final,
      registry.expandText document text = (.error fault, final) ↔
        ∃ before rest line middle call, text = before ++ rest ∧ before.EndsLine ∧
          rest.lines.head? = some line ∧ fault.line = before.count '\n' + 1 ∧
          FailsAt registry document before.lines line {} middle call fault final := by
  refine ⟨fun _ _ _ _ => expand_eq_error_iff, ?_, fun _ _ _ => expandText_eq_error_iff⟩
  intro front text back session fault final h hnumber
  obtain ⟨middle, call, hfails⟩ := exists_failsAt h hnumber
  refine ⟨fun others => ?_, fun invocation handler defaultDepth hdispatched hmem => ?_⟩
  · exact expand_eq_error_iff.mpr ⟨front, text, others, middle, call, rfl, hfails⟩
  · obtain ⟨⟨lines, hfront⟩, -⟩ := failsAt_iff.mp ⟨call, hfails⟩
    have hbuiltin : call.handler ∈ Builtin.handlers defaultDepth := by
      rw [hfails.dispatched] at hdispatched
      obtain ⟨-, rfl⟩ : call.invocation = invocation ∧ call.handler = handler := by
        simpa using hdispatched
      exact hmem
    have hrun := Builtin.run_of_error hbuiltin hfails.result
    refine ⟨lines, middle, hfront, ?_, ?_⟩
    · rw [hfails.left, Call.leaves, hrun, hfails.stash]
    · rw [hfails.left, Call.depths_leaves, hrun]
      simp [Session.depths]

/-- A list goes into the stash, and then a table of contents fails for an argument that it does not
take, whatever comes behind it. -/
theorem expand_fails_listAndToc :
    let document : Document := ⟨"Home".toList, fun _ => []⟩
    let front : List Text := ["a".toList, "[article_list]".toList]
    let text : Text := "[toc x:1]".toList
    let fault : LineFault := ⟨3, "toc".toList, .unexpectedArgument "x".toList⟩
    ∃ final, final.stash.entries.length = 1 ∧ final.depths = [3] ∧
      (∀ others,
        listAndToc.expand document (front ++ text :: others) {} = (.error fault, final)) ∧
      ∃ lines middle, listAndToc.expand document front {} = (.ok lines, middle) ∧
        final.stash = middle.stash ∧ final.depths = middle.depths := by
  intro document front text fault
  set run := listAndToc.expand document (front ++ [text]) {}
  have hresult : run.1 = .error fault := by decide +kernel
  have hdispatched : listAndToc.dispatched? text =
      some (⟨"toc".toList, some " x:1".toList⟩, Builtin.toc) := rfl
  obtain ⟨hothers, hbuiltin⟩ :=
    (expand_fails listAndToc document).2.1 front text [] {} fault run.2 (Prod.ext hresult rfl) rfl
  refine ⟨run.2, by decide +kernel, by decide +kernel, hothers, ?_⟩
  exact hbuiltin _ _ 2 hdispatched (by simp [Builtin.handlers])

end Registry

end WikiDirectives
