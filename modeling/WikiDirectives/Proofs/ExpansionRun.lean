import Mathlib.Data.List.ReduceOption
import Mathlib.Order.Fin.Basic
import WikiDirectives.Page

/-! What a successful expansion does, line by line: which handlers it calls, in which order and with
which stash, and where each line of the page comes from. -/
namespace WikiDirectives

/-! ## Calls -/

/-- A call of a handler: the number of its line, the directive, and the stash it finds. -/
structure Call where
  line : ℕ
  invocation : Invocation
  handler : Handler
  stash : Stash

/-- The handler's script, run for the arguments of the directive and with no events before it. -/
def Call.run (document : Document) (call : Call) : Except Fault Output × Session :=
  (call.handler.script call.invocation.arguments ⟨document.title, call.line⟩).run document
    { stash := call.stash }

/-- The session that a call leaves which is made in some session. -/
def Call.leaves (document : Document) (call : Call) (session : Session) : Session where
  stash := (call.run document).2.stash
  events := session.events ++
    .dispatched call.line call.invocation.name call.invocation.arguments.size ::
      (call.run document).2.events

def Output.line? : Output → Option Line
  | line text => some ⟨text, true⟩
  | remove => none

/-- A script sees the stash of its session but not the events, to which it only adds. -/
theorem Script.run_eq (document : Document) (script : Script) (session : Session) :
    script.run document session =
      ((script.run document { stash := session.stash }).1,
        { stash := (script.run document { stash := session.stash }).2.stash
          events := session.events ++
            (script.run document { stash := session.stash }).2.events }) := by
  induction script generalizing session with
  | done result => simp [Script.run]
  | children depth next ih =>
    simp only [Script.run]
    rw [ih _ (session.note _), ih _ (Session.note { stash := session.stash } _)]
    simp [Session.note]
  | put content next ih =>
    simp only [Script.run]
    rw [ih _ { session with stash := session.stash.put content },
      ih _ { stash := session.stash.put content }]
  | resolve token next ih =>
    simp only [Script.run]
    exact ih _ session

namespace Registry

/-- The directive of a line and the handler to run for it, if a directive is found there and its
name is allowed and has a handler. -/
def dispatched? (registry : Registry) (text : Text) : Option (Invocation × Handler) :=
  (Invocation.detect text).bind fun invocation =>
    (registry.lookup? invocation.name).map fun handler => (invocation, handler)

/-- What is noted of a line for which no handler is run. -/
def passing (registry : Registry) (number : ℕ) (text : Text) : List Event :=
  (Invocation.detect text).toList.map fun invocation =>
    if registry.isAllowed invocation.name then .unhandled number invocation.name
    else .ignored number invocation.name

variable {registry : Registry} {document : Document} {number : ℕ} {text : Text}

lemma dispatched?_eq_none_iff : registry.dispatched? text = none ↔
    ∀ invocation, Invocation.detect text = some invocation →
      registry.lookup? invocation.name = none := by
  simp [dispatched?]

lemma dispatched?_eq_some_iff {invocation : Invocation} {handler : Handler} :
    registry.dispatched? text = some (invocation, handler) ↔
      Invocation.detect text = some invocation ∧
        registry.lookup? invocation.name = some handler := by
  simp only [dispatched?, Option.bind_eq_some_iff, Option.map_eq_some_iff, Prod.mk.injEq]
  constructor
  · rintro ⟨_, hdetect, _, hlookup, rfl, rfl⟩
    exact ⟨hdetect, hlookup⟩
  · rintro ⟨hdetect, hlookup⟩
    exact ⟨invocation, hdetect, handler, hlookup, rfl, rfl⟩

theorem expandLine_of_none (h : registry.dispatched? text = none) (session : Session) :
    registry.expandLine document number text session =
      (.ok (some ⟨text, false⟩),
        { session with events := session.events ++ registry.passing number text }) := by
  unfold expandLine
  cases hdetect : Invocation.detect text with
  | none => simp [passing, hdetect]
  | some invocation =>
    have hlookup := dispatched?_eq_none_iff.mp h invocation hdetect
    simp [passing, hdetect, hlookup, Session.note]

theorem expandLine_of_some {invocation : Invocation} {handler : Handler}
    (h : registry.dispatched? text = some (invocation, handler)) (session : Session) :
    registry.expandLine document number text session =
      let call : Call := ⟨number, invocation, handler, session.stash⟩
      (((call.run document).1.map Output.line?).mapError (⟨number, invocation.name, ·⟩),
        { stash := (call.run document).2.stash
          events := session.events ++
            .dispatched number invocation.name invocation.arguments.size ::
              (call.run document).2.events }) := by
  obtain ⟨hdetect, hlookup⟩ := dispatched?_eq_some_iff.mp h
  simp only [expandLine, hdetect, hlookup, dispatch]
  rw [Script.run_eq]
  simp only [Session.note, Call.run]
  split <;> simp_all [Except.map, Except.mapError, Output.line?]

theorem expandLine_of_call (call : Call) {session : Session} (hline : call.line = number)
    (hstash : call.stash = session.stash)
    (h : registry.dispatched? text = some (call.invocation, call.handler)) :
    registry.expandLine document number text session =
      (((call.run document).1.map Output.line?).mapError (⟨number, call.invocation.name, ·⟩),
        call.leaves document session) := by
  obtain ⟨line, invocation, handler, stash⟩ := call
  dsimp only at hline hstash
  subst hline hstash
  exact expandLine_of_some h session

lemma expandFrom_cons_of_error {texts : List Text} {session next : Session} {fault : LineFault}
    (h : registry.expandLine document number text session = (.error fault, next)) :
    registry.expandFrom document number (text :: texts) session = (.error fault, next) := by
  rw [expandFrom, h]

lemma expandFrom_cons_of_ok {texts : List Text} {session next : Session} {line? : Option Line}
    (h : registry.expandLine document number text session = (.ok line?, next)) :
    registry.expandFrom document number (text :: texts) session =
      ((registry.expandFrom document (number + 1) texts next).1.map (line?.toList ++ ·),
        (registry.expandFrom document (number + 1) texts next).2) := by
  rw [expandFrom, h]
  dsimp only
  rcases registry.expandFrom document (number + 1) texts next with ⟨_ | _, _⟩ <;> rfl

theorem exists_of_expandFrom_cons {texts : List Text} {session final : Session} {lines : List Line}
    (h : registry.expandFrom document number (text :: texts) session = (.ok lines, final)) :
    ∃ line? next rest, registry.expandLine document number text session = (.ok line?, next) ∧
      registry.expandFrom document (number + 1) texts next = (.ok rest, final) ∧
      lines = line?.toList ++ rest := by
  rcases hline : registry.expandLine document number text session with ⟨fault | line?, next⟩
  · simp [expandFrom_cons_of_error hline] at h
  · rw [expandFrom_cons_of_ok hline] at h
    rcases hrest : registry.expandFrom document (number + 1) texts next with ⟨fault | rest, last⟩
    · simp [hrest, Except.map] at h
    · obtain ⟨rfl, rfl⟩ : line?.toList ++ rest = lines ∧ last = final := by
        simpa [hrest, Except.map] using h
      exact ⟨line?, next, rest, rfl, hrest, rfl⟩

/-! ## Courses -/

/-- The course of a successful run: what each line gives, which calls are made, and the session at
the end. -/
inductive Course (registry : Registry) (document : Document) :
    ℕ → List Text → Session → List (Option Line) → List Call → Session → Prop
  | done {number session} : Course registry document number [] session [] [] session
  | pass {number text texts session outputs calls final}
      (undispatched : registry.dispatched? text = none)
      (tail : Course registry document (number + 1) texts
        { session with events := session.events ++ registry.passing number text }
        outputs calls final) :
      Course registry document number (text :: texts) session (some ⟨text, false⟩ :: outputs) calls
        final
  | call {number text texts session outputs calls final output} {call : Call}
      (line : call.line = number) (stash : call.stash = session.stash)
      (dispatched : registry.dispatched? text = some (call.invocation, call.handler))
      (result : (call.run document).1 = .ok output)
      (tail : Course registry document (number + 1) texts
        { stash := (call.run document).2.stash
          events := session.events ++
            .dispatched number call.invocation.name call.invocation.arguments.size ::
              (call.run document).2.events }
        outputs calls final) :
      Course registry document number (text :: texts) session (output.line? :: outputs)
        (call :: calls) final

/-- A run that succeeds has a course, and its lines are what that course gives. -/
theorem exists_course_of_expandFrom {texts : List Text} {session final : Session}
    {lines : List Line}
    (h : registry.expandFrom document number texts session = (.ok lines, final)) :
    ∃ outputs calls, Course registry document number texts session outputs calls final ∧
      lines = outputs.reduceOption := by
  induction texts generalizing number session lines with
  | nil =>
    obtain ⟨rfl, rfl⟩ : lines = [] ∧ final = session := by
      simpa [expandFrom, eq_comm] using h
    exact ⟨[], [], .done, rfl⟩
  | cons text texts ih =>
    obtain ⟨line?, next, rest, hline, hrest, rfl⟩ := exists_of_expandFrom_cons h
    obtain ⟨outputs, calls, hcourse, rfl⟩ := ih hrest
    cases hdispatched : registry.dispatched? text with
    | none =>
      rw [expandLine_of_none hdispatched, Prod.mk.injEq, Except.ok.injEq] at hline
      obtain ⟨rfl, rfl⟩ := hline
      exact ⟨_, calls, .pass hdispatched hcourse, by simp⟩
    | some found =>
      obtain ⟨invocation, handler⟩ := found
      rw [expandLine_of_some hdispatched, Prod.mk.injEq] at hline
      obtain ⟨hresult, rfl⟩ := hline
      set call : Call := ⟨number, invocation, handler, session.stash⟩
      cases hrun : (call.run document).1 with
      | error fault => simp [hrun, Except.map, Except.mapError] at hresult
      | ok output =>
        obtain rfl : output.line? = line? := by
          simpa [hrun, Except.map, Except.mapError] using hresult
        refine ⟨_, call :: calls, .call rfl rfl hdispatched hrun hcourse, ?_⟩
        cases output <;> simp [Output.line?]

/-- The lines for which a handler is run, in line order: number, directive and handler. -/
def dispatches (registry : Registry) (number : ℕ) (texts : List Text) :
    List (ℕ × Invocation × Handler) :=
  (texts.zipIdx number).filterMap fun (text, n) =>
    (registry.dispatched? text).map fun found => (n, found)

/-- Of the calls in a row each finds the stash that the one before it left. -/
def Threaded (document : Document) : Stash → List Call → Stash → Prop
  | start, [], final => final = start
  | start, call :: calls, final =>
    call.stash = start ∧ Threaded document (call.run document).2.stash calls final

lemma depths_passing (registry : Registry) (number : ℕ) (text : Text) (session : Session) :
    ({ session with events := session.events ++ registry.passing number text } : Session).depths =
      session.depths := by
  simp only [Session.depths, List.filterMap_append, List.append_right_eq_self,
    List.filterMap_eq_nil_iff, passing, List.mem_map]
  rintro event ⟨invocation, _, rfl⟩
  split_ifs <;> rfl

namespace Course
variable {texts : List Text} {session final : Session} {outputs : List (Option Line)}
  {calls : List Call}

theorem calls_eq (h : Course registry document number texts session outputs calls final) :
    calls.map (fun call => (call.line, call.invocation, call.handler)) =
      registry.dispatches number texts := by
  induction h with
  | done => rfl
  | pass undispatched _ ih => simpa [dispatches, undispatched] using ih
  | call line _ dispatched _ _ ih => simpa [dispatches, dispatched, line] using ih

theorem threaded (h : Course registry document number texts session outputs calls final) :
    Threaded document session.stash calls final.stash := by
  induction h with
  | done => rfl
  | pass _ _ ih => exact ih
  | call _ stash _ _ _ ih => exact ⟨stash, ih⟩

theorem depths_eq (h : Course registry document number texts session outputs calls final) :
    final.depths = session.depths ++ calls.flatMap fun call => (call.run document).2.depths := by
  induction h with
  | done => simp
  | pass _ _ ih =>
    rw [ih, depths_passing]
  | call _ _ _ _ _ ih =>
    rw [ih]
    simp [Session.depths]

lemma length_eq (h : Course registry document number texts session outputs calls final) :
    outputs.length = texts.length := by
  induction h with
  | done => rfl
  | pass _ _ ih => simpa using ih
  | call _ _ _ _ _ ih => simpa using ih

theorem output_of_none (h : Course registry document number texts session outputs calls final)
    {i : ℕ} (hi : texts[i]? = some text) (hnone : registry.dispatched? text = none) :
    outputs[i]? = some (some ⟨text, false⟩) := by
  induction h generalizing i with
  | done => simp at hi
  | pass _ _ ih =>
    cases i with
    | zero => simpa using hi
    | succ i => exact ih (by simpa using hi)
  | call _ _ dispatched _ _ ih =>
    cases i with
    | zero => simp_all
    | succ i => exact ih (by simpa using hi)

theorem call_of_some (h : Course registry document number texts session outputs calls final)
    {i : ℕ} {invocation : Invocation} {handler : Handler} (hi : texts[i]? = some text)
    (hsome : registry.dispatched? text = some (invocation, handler)) :
    ∃ call ∈ calls, call.line = number + i ∧ call.invocation = invocation ∧
      call.handler = handler := by
  induction h generalizing i with
  | done => simp at hi
  | pass undispatched _ ih =>
    cases i with
    | zero => simp_all
    | succ i =>
      obtain ⟨call, hmem, hline, hfound⟩ := ih (i := i) (by simpa using hi)
      exact ⟨call, hmem, by omega, hfound⟩
  | call line _ dispatched _ _ ih =>
    cases i with
    | zero => exact ⟨_, List.mem_cons_self, by simpa using line, by simp_all⟩
    | succ i =>
      obtain ⟨call, hmem, hline, hfound⟩ := ih (i := i) (by simpa using hi)
      exact ⟨call, List.mem_cons_of_mem _ hmem, by omega, hfound⟩

lemma le_line (h : Course registry document number texts session outputs calls final)
    {call : Call} (hmem : call ∈ calls) : number ≤ call.line := by
  induction h with
  | done => simp at hmem
  | pass _ _ ih => exact Nat.le_of_succ_le (ih hmem)
  | call line _ _ _ _ ih =>
    rcases List.mem_cons.mp hmem with rfl | hmem
    · exact line.ge
    · exact Nat.le_of_succ_le (ih hmem)

/-- A call belongs to the line with its number, and that line gives what the call returns. -/
theorem output_of_call (h : Course registry document number texts session outputs calls final)
    {call : Call} (hmem : call ∈ calls) {i : ℕ} (hline : call.line = number + i) :
    ∃ output, (call.run document).1 = .ok output ∧ outputs[i]? = some output.line? := by
  induction h generalizing i with
  | done => simp at hmem
  | pass _ tail ih =>
    -- The calls of later lines have greater numbers, so the place is not the first one.
    have hle := tail.le_line hmem
    obtain ⟨i, rfl⟩ : ∃ j, i = j + 1 := ⟨i - 1, by omega⟩
    simpa using ih hmem (i := i) (by omega)
  | call line _ _ result tail ih =>
    rcases List.mem_cons.mp hmem with rfl | hmem
    · obtain rfl : i = 0 := by omega
      exact ⟨_, result, rfl⟩
    · have hle := tail.le_line hmem
      obtain ⟨i, rfl⟩ : ∃ j, i = j + 1 := ⟨i - 1, by omega⟩
      simpa using ih hmem (i := i) (by omega)

theorem made_of_some (h : Course registry document number texts session outputs calls final)
    {i : ℕ} {invocation : Invocation} {handler : Handler} {line : Line} (hi : texts[i]? = some text)
    (hsome : registry.dispatched? text = some (invocation, handler))
    (hline : outputs[i]? = some (some line)) :
    line.generated = true ∧ ∃ call ∈ calls, call.line = number + i ∧
      call.invocation = invocation ∧ call.handler = handler ∧
      (call.run document).1 = .ok (.line line.text) := by
  obtain ⟨call, hmem, hnumber, hinvocation, hhandler⟩ := h.call_of_some hi hsome
  obtain ⟨output, hresult, houtput⟩ := h.output_of_call hmem hnumber
  have hgives : output.line? = some line := by
    rw [hline, Option.some.injEq] at houtput
    exact houtput.symm
  cases output with
  | remove => simp [Output.line?] at hgives
  | line text =>
    obtain rfl : ⟨text, true⟩ = line := by simpa [Output.line?] using hgives
    exact ⟨rfl, call, hmem, hnumber, hinvocation, hhandler, hresult⟩

theorem removed_iff (h : Course registry document number texts session outputs calls final)
    {i : ℕ} (hi : texts[i]? = some text) :
    outputs[i]? = some none ↔
      ∃ call ∈ calls, call.line = number + i ∧ (call.run document).1 = .ok .remove := by
  constructor
  · intro hnone
    cases hdispatched : registry.dispatched? text with
    | none =>
      have hkept := h.output_of_none hi hdispatched
      simp [hnone] at hkept
    | some found =>
      obtain ⟨call, hmem, hnumber, -⟩ := h.call_of_some hi hdispatched
      obtain ⟨output, hresult, houtput⟩ := h.output_of_call hmem hnumber
      rw [hnone, Option.some.injEq] at houtput
      cases output with
      | line text => simp [Output.line?] at houtput
      | remove => exact ⟨call, hmem, hnumber, hresult⟩
  · rintro ⟨call, hmem, hnumber, hremove⟩
    obtain ⟨output, hresult, houtput⟩ := h.output_of_call hmem hnumber
    obtain rfl : output = .remove := Except.ok.inj (hresult.symm.trans hremove)
    exact houtput

end Course

/-! ## Where the lines come from -/

/-- The places of the values in a list of options ascend, and at every other place there is none. -/
theorem exists_places {α : Type} (outputs : List (Option α)) :
    ∃ source : Fin outputs.reduceOption.length → Fin outputs.length, StrictMono source ∧
      (∀ k, outputs.get (source k) = some (outputs.reduceOption.get k)) ∧
      ∀ i, (∀ k, source k ≠ i) ↔ outputs.get i = none := by
  induction outputs with
  | nil => exact ⟨Fin.elim0, fun k => k.elim0, fun k => k.elim0, fun i => i.elim0⟩
  | cons output outputs ih =>
    obtain ⟨source, hmono, hget, hmissing⟩ := ih
    have hsucc : ∀ i, (∀ k, (source k).succ ≠ i.succ) ↔ outputs.get i = none := fun i =>
      (forall_congr' fun k => (Fin.succ_injective _).ne_iff).trans (hmissing i)
    cases output with
    | none =>
      refine ⟨fun k => (source k).succ, fun j k hjk => Fin.succ_lt_succ_iff.mpr (hmono hjk),
        hget, Fin.cases ?_ hsucc⟩
      exact ⟨fun _ => rfl, fun _ k => Fin.succ_ne_zero (source k)⟩
    | some value =>
      refine ⟨Fin.cases 0 fun k => (source k).succ, ?_, Fin.cases rfl hget,
        Fin.cases ?_ fun i => ?_⟩
      · refine Fin.cases (Fin.cases ?_ fun k _ => ?_) fun j => Fin.cases ?_ fun k hjk => ?_
        · exact fun h => absurd h (lt_irrefl _)
        · exact Fin.succ_pos (source k)
        · exact fun h => absurd h (Fin.not_lt_zero _)
        · exact Fin.succ_lt_succ_iff.mpr (hmono (Fin.succ_lt_succ_iff.mp hjk))
      · exact ⟨fun h => absurd rfl (h ⟨0, Nat.zero_lt_succ _⟩), fun h => nomatch h⟩
      · refine Iff.trans ⟨fun h k => h (Fin.succ k), fun h => ?_⟩ (hsucc i)
        exact Fin.cases (Fin.succ_ne_zero i).symm h

/-- How the lines of a page follow from numbered lines of text and from the calls made for them. A line
for which no handler is run stays as it is and is marked so, any other is what its call returns, and
a line is missing exactly if its call removes it. There is one call for each line with a handler, in
line order; each finds the stash that the one before it left, and the document is asked for what the
calls ask and nothing else. -/
structure Follows (registry : Registry) (document : Document) (number : ℕ) (texts : List Text)
    (session : Session) (lines : List Line) (final : Session) (calls : List Call)
    (source : Fin lines.length → Fin texts.length) : Prop where
  ordered : StrictMono source
  marked : ∀ k, (lines.get k).generated = false ↔
    registry.dispatched? (texts.get (source k)) = none
  kept : ∀ k, registry.dispatched? (texts.get (source k)) = none →
    (lines.get k).text = texts.get (source k)
  made : ∀ k invocation handler,
    registry.dispatched? (texts.get (source k)) = some (invocation, handler) →
      ∃ call ∈ calls, call.line = number + source k ∧ call.invocation = invocation ∧
        call.handler = handler ∧ (call.run document).1 = .ok (.line (lines.get k).text)
  missing : ∀ i, (∀ k, source k ≠ i) ↔
    ∃ call ∈ calls, call.line = number + i ∧ (call.run document).1 = .ok .remove
  called : calls.map (fun call => (call.line, call.invocation, call.handler)) =
    registry.dispatches number texts
  threaded : Threaded document session.stash calls final.stash
  asked : final.depths = session.depths ++ calls.flatMap fun call => (call.run document).2.depths

theorem follows_of_expandFrom {texts : List Text} {session final : Session} {lines : List Line}
    (h : registry.expandFrom document number texts session = (.ok lines, final)) :
    ∃ calls source, Follows registry document number texts session lines final calls source := by
  obtain ⟨outputs, calls, hcourse, rfl⟩ := exists_course_of_expandFrom h
  obtain ⟨places, hmono, hget, hmissing⟩ := exists_places outputs
  have hlength := hcourse.length_eq
  have htext : ∀ i : Fin texts.length, texts[i.val]? = some (texts.get i) := fun i => by simp
  have hline : ∀ k, outputs[(places k).val]? = some (some (outputs.reduceOption.get k)) := fun k => by
    rw [← hget k]
    simp
  have hkept : ∀ k, registry.dispatched? (texts.get ((places k).cast hlength)) = none →
      outputs.reduceOption.get k = ⟨texts.get ((places k).cast hlength), false⟩ := fun k hnone => by
    have hsource := hcourse.output_of_none (htext ((places k).cast hlength)) hnone
    exact Option.some.inj (Option.some.inj ((hline k).symm.trans hsource))
  refine ⟨calls, fun k => (places k).cast hlength, ?_⟩
  constructor
  case ordered => exact fun j k hjk => hmono hjk
  case marked =>
    intro k
    cases hdispatched : registry.dispatched? (texts.get ((places k).cast hlength)) with
    | none => simp only [hkept k hdispatched]
    | some found =>
      have hmade := (hcourse.made_of_some (htext _) hdispatched (hline k)).1
      simp only [hmade, reduceCtorEq]
  case kept =>
    intro k hdispatched
    rw [hkept k hdispatched]
  case made =>
    intro k invocation handler hdispatched
    exact (hcourse.made_of_some (htext _) hdispatched (hline k)).2
  case missing =>
    intro i
    have hplaces : (∀ k, (places k).cast hlength ≠ i) ↔ ∀ k, places k ≠ i.cast hlength.symm := by
      simp only [ne_eq, Fin.ext_iff, Fin.val_cast]
    have hnone : outputs.get (i.cast hlength.symm) = none ↔ outputs[i.val]? = some none := by
      simp [hlength]
    rw [hplaces, hmissing, hnone, hcourse.removed_iff (htext i)]
  case called => exact hcourse.calls_eq
  case threaded => exact hcourse.threaded
  case asked => exact hcourse.depths_eq

lemma expandText_ok {page : Page} {final : Session}
    (h : registry.expandText document text = (.ok page, final)) :
    ∃ lines, registry.expand document text.lines {} = (.ok lines, final) ∧
      page.lines = lines.map (·.text) ∧ page.generated = lines.map (·.generated) ∧
      page.stash = final.stash := by
  unfold expandText at h
  cases hexpand : registry.expand document text.lines {} with
  | mk result session =>
    cases result with
    | error fault => simp [hexpand, Except.map] at h
    | ok lines =>
      simp only [hexpand, Except.map, Prod.mk.injEq, Except.ok.injEq] at h
      obtain ⟨rfl, rfl⟩ := h
      exact ⟨lines, rfl, rfl, rfl, rfl⟩

/-- What a successful expansion does, to lines with any stash before them and to a text as a whole:
each line of the page comes, in order, from one of the source and from its call. -/
theorem expand_follows (registry : Registry) (document : Document) :
    (∀ texts session lines final,
      registry.expand document texts session = (.ok lines, final) →
        ∃ calls source, Follows registry document 1 texts session lines final calls source) ∧
    ∀ text page final, registry.expandText document text = (.ok page, final) →
      page.generated.length = page.lines.length ∧ page.stash = final.stash ∧
        ∃ calls source, Follows registry document 1 text.lines {}
          (List.zipWith Line.mk page.lines page.generated) final calls source := by
  refine ⟨fun texts session lines final h => follows_of_expandFrom h, fun text page final h => ?_⟩
  obtain ⟨lines, hexpand, hlines, hgenerated, hstash⟩ := expandText_ok h
  have hzip : List.zipWith Line.mk page.lines page.generated = lines := by
    simp [hlines, hgenerated, List.zipWith_map]
  rw [hzip]
  exact ⟨by simp [hlines, hgenerated], hstash, follows_of_expandFrom hexpand⟩

/-- A registry with a handler that keeps a text aside and one that removes its line. -/
def keepOrDrop : Registry where
  allowed := ["keep".toList, "drop".toList]
  handlers := Dict.ofList
    [("keep".toList,
      { name := "keep".toList
        help := { short := [], long := [], sample := [] }
        script := fun _ _ => .put "kept".toList .line }),
    ("drop".toList,
      { name := "drop".toList
        help := { short := [], long := [], sample := [] }
        script := fun _ _ => .remove })]

/-- Of five lines with two calls that keep a text and one that removes its line four are left. -/
theorem expand_follows_keepOrDrop :
    let texts := ["a".toList, "[keep]".toList, "[drop]".toList, "[other]".toList, "[keep]".toList]
    let lines : List Line :=
      [⟨"a".toList, false⟩, ⟨Stash.token 0, true⟩, ⟨"[other]".toList, false⟩, ⟨Stash.token 1, true⟩]
    let run := keepOrDrop.expand ⟨[], fun _ => []⟩ texts {}
    run.1 = .ok lines ∧ run.2.stash = ⟨["kept".toList, "kept".toList]⟩ ∧
      ∃ calls source, Follows keepOrDrop ⟨[], fun _ => []⟩ 1 texts {} lines run.2 calls source := by
  refine ⟨rfl, rfl, ?_⟩
  exact (expand_follows keepOrDrop ⟨[], fun _ => []⟩).1 _ {} _ _ rfl

end Registry

end WikiDirectives
