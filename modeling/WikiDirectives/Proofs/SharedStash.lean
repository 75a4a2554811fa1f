import Mathlib.Data.List.Nodup
import WikiDirectives.Proofs.Inlining
import WikiDirectives.Proofs.Tokens

/-! One stash for many runs. Every content that is put into it gets a token of its own, which stays the
token of that content; and a run with contents before it is the run without them, its tokens moved. -/
namespace WikiDirectives

/-! ## Tokens of a stash -/

namespace Stash
variable {stash : Stash} {place : ℕ} {token content : Text}

theorem token_injective : Function.Injective Stash.token := by
  intro a b h
  have hdecimal : Text.decimal a = Text.decimal b := by simpa [Stash.token] using h
  rw [← Text.number_decimal a, hdecimal, Text.number_decimal]

lemma tokens_put (stash : Stash) (content : Text) :
    (stash.put content).tokens = stash.tokens ++ [(stash.nextToken, content)] := by
  simp [tokens, put, nextToken, List.zipIdx_append]

lemma length_tokens (stash : Stash) : stash.tokens.length = stash.entries.length := by
  simp [tokens]

lemma map_fst_tokens (stash : Stash) :
    stash.tokens.map (·.1) = (List.range' 0 stash.entries.length).map Stash.token := by
  rw [← List.zipIdx_map_snd 0 stash.entries, tokens, List.map_map, List.map_map]
  rfl

theorem nodup_tokens (stash : Stash) : (stash.tokens.map (·.1)).Nodup := by
  rw [map_fst_tokens]
  exact List.Nodup.map token_injective List.nodup_range'

lemma exists_place_of_mem_tokens (h : (token, content) ∈ stash.tokens) :
    ∃ place, token = Stash.token place ∧ stash.entries[place]? = some content := by
  obtain ⟨⟨_, place⟩, hmem, heq⟩ := List.mem_map.mp h
  obtain ⟨rfl, rfl⟩ := Prod.mk.inj heq
  exact ⟨place, rfl, List.mk_mem_zipIdx_iff_getElem?.mp hmem⟩

lemma resolve?_token (h : place ≤ wordBound) :
    stash.resolve? (Stash.token place) = stash.entries[place]? :=
  (resolve?_tokenOf (Text.decimal place)).trans (atNumeral?_decimal h)

/-- A token that the stash lists is resolved to its content, alone and in a text. -/
theorem resolve_of_mem_tokens (hroom : stash.entries.length ≤ wordBound)
    (h : (token, content) ∈ stash.tokens) :
    stash.resolve? token = some content ∧ stash.resolveAll token = content := by
  obtain ⟨place, rfl, hentry⟩ := exists_place_of_mem_tokens h
  have hplace : place ≤ wordBound := by
    have := (List.getElem?_eq_some_iff.mp hentry).1
    omega
  exact ⟨(resolve?_token hplace).trans hentry, resolveAll_token hplace hentry⟩

end Stash

/-! ## What is put into a stash -/

/-- The contents that a script puts into the stash, in order, each with the token that it gets. -/
def Script.puts (document : Document) : Script → Stash → List (Text × Text)
  | done _, _ => []
  | children depth next, stash => (next (document.children depth)).puts document stash
  | put content next, stash =>
    (stash.nextToken, content) :: (next stash.nextToken).puts document (stash.put content)
  | resolve token next, stash => (next (stash.resolve? token)).puts document stash

def Call.puts (document : Document) (call : Call) : List (Text × Text) :=
  (call.handler.script call.invocation.arguments ⟨document.title, call.line⟩).puts document call.stash

theorem Script.tokens_run (document : Document) (script : Script) (session : Session) :
    (script.run document session).2.stash.tokens =
      session.stash.tokens ++ script.puts document session.stash := by
  induction script generalizing session with
  | done result => simp [Script.run, Script.puts]
  | children depth next ih =>
    rw [Script.run, ih]
    rfl
  | put content next ih =>
    rw [Script.run, ih, Stash.tokens_put, List.append_assoc]
    rfl
  | resolve token next ih =>
    rw [Script.run, ih]
    rfl

namespace Registry
variable {registry : Registry} {document : Document} {number : ℕ} {text : Text} {session : Session}

def putsLine (registry : Registry) (document : Document) (number : ℕ) (text : Text) (stash : Stash) :
    List (Text × Text) :=
  match registry.dispatched? text with
  | none => []
  | some (invocation, handler) => Call.puts document ⟨number, invocation, handler, stash⟩

/-- What the handlers put into the stash in a run of lines that are numbered from `number` on, up to the
line that fails if one does. -/
def putsFrom (registry : Registry) (document : Document) :
    ℕ → List Text → Session → List (Text × Text)
  | _, [], _ => []
  | number, text :: texts, session =>
    registry.putsLine document number text session.stash ++
      match registry.expandLine document number text session with
      | (.error _, _) => []
      | (.ok _, next) => registry.putsFrom document (number + 1) texts next

theorem tokens_expandLine (registry : Registry) (document : Document) (number : ℕ) (text : Text)
    (session : Session) :
    (registry.expandLine document number text session).2.stash.tokens =
      session.stash.tokens ++ registry.putsLine document number text session.stash := by
  unfold putsLine
  cases hdispatched : registry.dispatched? text with
  | none => simp [expandLine_of_none hdispatched]
  | some found =>
    rw [expandLine_of_call ⟨number, found.1, found.2, session.stash⟩ rfl rfl hdispatched]
    exact Script.tokens_run document _ _

theorem tokens_expandFrom (registry : Registry) (document : Document) (number : ℕ)
    (texts : List Text) (session : Session) :
    (registry.expandFrom document number texts session).2.stash.tokens =
      session.stash.tokens ++ registry.putsFrom document number texts session := by
  induction texts generalizing number session with
  | nil => simp [expandFrom, putsFrom]
  | cons text texts ih =>
    have hline := registry.tokens_expandLine document number text session
    rw [putsFrom]
    rcases hexpand : registry.expandLine document number text session with ⟨fault | line?, next⟩
    · rw [hexpand] at hline
      rw [expandFrom_cons_of_error hexpand, hline, List.append_nil]
    · rw [hexpand] at hline
      rw [expandFrom_cons_of_ok hexpand, ih, hline, List.append_assoc]

end Registry

/-! ## Histories -/

/-- A use of a stash: a content put into it by hand, or a run of lines. -/
inductive StashUse where
  | put (content : Text)
  | run (registry : Registry) (document : Document) (texts : List Text)

namespace StashUse

/-- The stash after a use of it. A run that fails leaves what it has put there. -/
def after : StashUse → Stash → Stash
  | put content, stash => stash.put content
  | run registry document texts, stash => (registry.expand document texts { stash }).2.stash

/-- The tokens that a use returns or its handlers get, with the contents they are given for. -/
def emitted : StashUse → Stash → List (Text × Text)
  | put content, stash => [(stash.nextToken, content)]
  | run registry document texts, stash => registry.putsFrom document 1 texts { stash }

def afterAll (uses : List StashUse) (stash : Stash) : Stash :=
  uses.foldl (fun stash use => use.after stash) stash

def allEmitted : List StashUse → Stash → List (Text × Text)
  | [], _ => []
  | use :: uses, stash => use.emitted stash ++ allEmitted uses (use.after stash)

theorem tokens_after (use : StashUse) (stash : Stash) :
    (use.after stash).tokens = stash.tokens ++ use.emitted stash := by
  cases use with
  | put content => exact stash.tokens_put content
  | run registry document texts => exact registry.tokens_expandFrom document 1 texts { stash }

theorem tokens_afterAll (uses : List StashUse) (stash : Stash) :
    (afterAll uses stash).tokens = stash.tokens ++ allEmitted uses stash := by
  induction uses generalizing stash with
  | nil => simp [afterAll, allEmitted]
  | cons use uses ih =>
    show (afterAll uses (use.after stash)).tokens = _
    rw [ih, tokens_after, allEmitted, List.append_assoc]

lemma allEmitted_append (uses later : List StashUse) (stash : Stash) :
    allEmitted (uses ++ later) stash =
      allEmitted uses stash ++ allEmitted later (afterAll uses stash) := by
  induction uses generalizing stash with
  | nil => rfl
  | cons use uses ih =>
    rw [List.cons_append, allEmitted, ih, allEmitted, List.append_assoc]
    rfl

end StashUse

/-! ## Contents before a run -/

namespace Stash

/-- The stash with contents before its own. -/
def preloaded (earlier : List Text) (stash : Stash) : Stash := ⟨earlier ++ stash.entries⟩

/-- The place whose token a text is. -/
def placeOf? (text : Text) : Option ℕ :=
  match tokenAt? text with
  | some (digits, []) => (Numeral.natural wordBound digits).toOption
  | _ => none

/-- A token moved on by a number of places; a text that is no token stays. -/
def moved (places : ℕ) (text : Text) : Text :=
  match placeOf? text with
  | some place => token (places + place)
  | none => text

lemma placeOf?_token {place : ℕ} (h : place ≤ wordBound) : placeOf? (token place) = some place := by
  have hat : tokenAt? (token place) = some (Text.decimal place, []) :=
    tokenAt?_eq_some_iff.mpr ⟨(List.append_nil _).symm, isDigits_decimal place⟩
  simp [placeOf?, hat, Numeral.natural_decimal h, Except.toOption]

lemma moved_token {place : ℕ} (h : place ≤ wordBound) (places : ℕ) :
    moved places (token place) = token (places + place) := by
  simp [moved, placeOf?_token h]

lemma moved_of_not_mem {text : Text} (h : '\x02' ∉ text) (places : ℕ) :
    moved places text = text := by
  have hat : tokenAt? text = none := by
    cases text with
    | nil => rfl
    | cons c s => exact tokenAt?_eq_none_of_ne (fun hc => h (hc ▸ List.mem_cons_self)) s
  simp [moved, placeOf?, hat]

lemma nextToken_preloaded {stash : Stash} (h : stash.entries.length ≤ wordBound)
    (earlier : List Text) :
    (stash.preloaded earlier).nextToken = moved earlier.length stash.nextToken := by
  rw [nextToken, nextToken, moved_token h, preloaded, List.length_append]

lemma put_preloaded (stash : Stash) (earlier : List Text) (content : Text) :
    (stash.preloaded earlier).put content = (stash.put content).preloaded earlier := by
  simp [put, preloaded]

end Stash

/-- The line with its token moved on. A line that is copied from the page stays, whatever its text. -/
def Line.moved (places : ℕ) (line : Line) : Line :=
  if line.generated then { line with text := Stash.moved places line.text } else line

/-- The token that a handler has returned for a line. -/
def Line.token? (line : Line) : Option Text :=
  if line.generated && line.text.contains '\x02' then some line.text else none

def Session.preloaded (earlier : List Text) (session : Session) : Session :=
  { session with stash := session.stash.preloaded earlier }

namespace Registry
variable {registry : Registry} {document : Document} {defaultDepth number : ℕ} {text : Text}
  {texts : List Text} {session : Session}

theorem expandLine_preloaded (hbuiltins : registry.OnlyBuiltins defaultDepth)
    (hroom : session.stash.entries.length ≤ wordBound) (document : Document) (number : ℕ)
    (text : Text) (earlier : List Text) :
    registry.expandLine document number text (session.preloaded earlier) =
      ((registry.expandLine document number text session).1.map
          (Option.map (Line.moved earlier.length)),
        (registry.expandLine document number text session).2.preloaded earlier) := by
  cases hdispatched : registry.dispatched? text with
  | none =>
    rw [expandLine_of_none hdispatched, expandLine_of_none hdispatched]
    rfl
  | some found =>
    obtain ⟨invocation, handler⟩ := found
    rw [expandLine_of_some hdispatched, expandLine_of_some hdispatched]
    obtain ⟨fault, hrun⟩ | ⟨line, hline, hrun⟩ | ⟨depth, hrun⟩ :=
      Builtin.run_cases (hbuiltins.of_dispatched? hdispatched).2 document number invocation
    · simp only [hrun]
      rfl
    · simp only [hrun]
      simp [Except.map, Except.mapError, Output.line?, Line.moved, Stash.moved_of_not_mem hline,
        Session.preloaded]
    · simp only [hrun]
      simp [Except.map, Except.mapError, Output.line?, Line.moved, Session.preloaded,
        Stash.nextToken_preloaded hroom, Stash.put_preloaded]

lemma length_entries_le_expandFrom (registry : Registry) (document : Document) (number : ℕ)
    (texts : List Text) (session : Session) :
    session.stash.entries.length ≤
      (registry.expandFrom document number texts session).2.stash.entries.length := by
  have htokens := congrArg List.length (registry.tokens_expandFrom document number texts session)
  rw [List.length_append, Stash.length_tokens, Stash.length_tokens] at htokens
  omega

/-- Contents before a run move its tokens and change nothing else. -/
theorem expandFrom_preloaded (hbuiltins : registry.OnlyBuiltins defaultDepth)
    (hroom : (registry.expandFrom document number texts session).2.stash.entries.length ≤ wordBound)
    (earlier : List Text) :
    registry.expandFrom document number texts (session.preloaded earlier) =
      ((registry.expandFrom document number texts session).1.map
          (List.map (Line.moved earlier.length)),
        (registry.expandFrom document number texts session).2.preloaded earlier) := by
  induction texts generalizing number session with
  | nil => rfl
  | cons text texts ih =>
    -- A stash only grows, so what bounds the last one bounds the first.
    have hgrows := registry.length_entries_le_expandFrom document number (text :: texts) session
    have hline := expandLine_preloaded hbuiltins (hgrows.trans hroom) document number text earlier
    rcases hexpand : registry.expandLine document number text session with ⟨fault | line?, next⟩
    · rw [hexpand] at hline
      rw [expandFrom_cons_of_error hexpand, expandFrom_cons_of_error hline]
      rfl
    · rw [hexpand] at hline
      rw [expandFrom_cons_of_ok hexpand] at hroom ⊢
      rw [expandFrom_cons_of_ok hline, ih hroom]
      cases (registry.expandFrom document (number + 1) texts next).1 <;>
        cases line? <;> simp [Except.map]

theorem token?_of_expandLine (hbuiltins : registry.OnlyBuiltins defaultDepth) {line? : Option Line}
    {next : Session} (h : registry.expandLine document number text session = (.ok line?, next)) :
    line?.toList.filterMap Line.token? =
      (registry.putsLine document number text session.stash).map (·.1) := by
  have htokens := registry.tokens_expandLine document number text session
  cases hdispatched : registry.dispatched? text with
  | none =>
    rw [expandLine_of_none hdispatched] at h
    obtain ⟨hline, -⟩ := Prod.mk.inj h
    obtain rfl := Except.ok.inj hline
    simp [putsLine, hdispatched, Line.token?]
  | some found =>
    obtain ⟨invocation, handler⟩ := found
    rw [expandLine_of_some hdispatched] at h htokens
    obtain ⟨fault, hrun⟩ | ⟨line, hplain, hrun⟩ | ⟨depth, hrun⟩ :=
      Builtin.run_cases (hbuiltins.of_dispatched? hdispatched).2 document number invocation
    · simp [hrun, Except.map, Except.mapError] at h
    · simp only [hrun] at h htokens
      obtain rfl : some ⟨line, true⟩ = line? := Except.ok.inj (Prod.mk.inj h).1
      rw [List.self_eq_append_right.mp htokens]
      simp [Line.token?, hplain]
    · simp only [hrun] at h htokens
      obtain rfl : some ⟨session.stash.nextToken, true⟩ = line? := Except.ok.inj (Prod.mk.inj h).1
      rw [Stash.tokens_put, List.append_cancel_left_eq] at htokens
      rw [← htokens]
      simp [Line.token?, Stash.nextToken, Stash.token, Stash.tokenOpening]

/-- In a run of built-in handlers the tokens among the lines are those of the contents put, in order. -/
theorem token?_of_expandFrom (hbuiltins : registry.OnlyBuiltins defaultDepth) {lines : List Line}
    {final : Session}
    (h : registry.expandFrom document number texts session = (.ok lines, final)) :
    lines.filterMap Line.token? =
      (registry.putsFrom document number texts session).map (·.1) := by
  induction texts generalizing number session lines with
  | nil =>
    obtain rfl : [] = lines := Except.ok.inj (Prod.mk.inj h).1
    rfl
  | cons text texts ih =>
    obtain ⟨line?, next, rest, hexpand, hrest, rfl⟩ := exists_of_expandFrom_cons h
    rw [List.filterMap_append, token?_of_expandLine hbuiltins hexpand, ih hrest, putsFrom, hexpand,
      List.map_append]

/-- The contents that a run puts get the places behind those that are there. -/
theorem map_fst_putsFrom (registry : Registry) (document : Document) (number : ℕ)
    (texts : List Text) (session : Session) {added : ℕ}
    (h : (registry.expandFrom document number texts session).2.stash.entries.length =
      session.stash.entries.length + added) :
    (registry.putsFrom document number texts session).map (·.1) =
      (List.range' session.stash.entries.length added).map Stash.token := by
  have htokens := congrArg (List.map (·.1))
    (registry.tokens_expandFrom document number texts session)
  rw [List.map_append, Stash.map_fst_tokens, Stash.map_fst_tokens, h, ← List.range'_append_1,
    List.map_append, List.append_cancel_left_eq, Nat.zero_add] at htokens
  exact htokens.symm

end Registry

/-! ## Sharing a stash -/

/-- Tokens last. Whatever is put into a stash by hand or by runs, failed ones among them, the stash lists
it in the order in which it was put, no two contents have one token, and a token that was given stands for
its content however the stash is used later. A run of built-in handlers on a stash with contents returns
what it returns on an empty one, with the tokens that its handlers return moved on by the number of these
contents: they are those of the next places. -/
theorem StashUse.tokens_last :
    (∀ (start : Stash) (uses later : List StashUse),
      let final := afterAll (uses ++ later) start
      final.tokens =
          start.tokens ++ allEmitted uses start ++ allEmitted later (afterAll uses start) ∧
        (final.tokens.map (·.1)).Nodup ∧
        (final.entries.length < 2 ^ 64 → ∀ emission ∈ allEmitted uses start,
          final.resolve? emission.1 = some emission.2 ∧
            final.resolveAll emission.1 = emission.2)) ∧
    ∀ (registry : Registry) (defaultDepth : ℕ) (document : Document) (texts earlier : List Text),
      let fresh := registry.expand document texts {}
      let run := registry.expand document texts { stash := ⟨earlier⟩ }
      registry.OnlyBuiltins defaultDepth →
      earlier.length + fresh.2.stash.entries.length < 2 ^ 64 →
        run.1 = fresh.1.map (List.map (Line.moved earlier.length)) ∧
        run.2.stash.entries = earlier ++ fresh.2.stash.entries ∧
        run.2.events = fresh.2.events ∧
        ∀ lines, run.1 = .ok lines →
          lines.filterMap Line.token? =
              ((StashUse.run registry document texts).emitted ⟨earlier⟩).map (·.1) ∧
            lines.filterMap Line.token? =
              (List.range' earlier.length fresh.2.stash.entries.length).map Stash.token := by
  constructor
  · intro start uses later final
    have htokens : final.tokens =
        start.tokens ++ allEmitted uses start ++ allEmitted later (afterAll uses start) := by
      rw [tokens_afterAll, allEmitted_append, List.append_assoc]
    refine ⟨htokens, final.nodup_tokens, fun hroom emission hmem => ?_⟩
    refine Stash.resolve_of_mem_tokens (Nat.le_of_lt_succ hroom) ?_
    rw [htokens]
    exact List.mem_append_left _ (List.mem_append_right _ hmem)
  · intro registry defaultDepth document texts earlier fresh run hbuiltins hroom
    have hfresh : fresh.2.stash.entries.length ≤ wordBound := by
      have hword : wordBound + 1 = 2 ^ 64 := rfl
      omega
    have hrun : run = (fresh.1.map (List.map (Line.moved earlier.length)),
        fresh.2.preloaded earlier) := by
      have hstart : Session.preloaded earlier {} = { stash := ⟨earlier⟩ } := by
        simp [Session.preloaded, Stash.preloaded]
      have hmoved := Registry.expandFrom_preloaded hbuiltins hfresh earlier
      rwa [hstart] at hmoved
    refine ⟨by rw [hrun], by rw [hrun]; rfl, by rw [hrun]; rfl, fun lines hlines => ?_⟩
    have htokens := Registry.token?_of_expandFrom hbuiltins (Prod.ext hlines rfl)
    refine ⟨htokens, htokens.trans (registry.map_fst_putsFrom document 1 texts _ ?_)⟩
    change run.2.stash.entries.length = _
    rw [hrun]
    exact List.length_append

/-- A content put by hand and a run that fails come before a run that copies a line with the form of a
token: this line is not moved. -/
theorem StashUse.tokens_last_copiedToken :
    let document : Document := ⟨"Home".toList, fun _ => []⟩
    let texts : List Text := ["[article_list]".toList, Stash.token 0, "[toc]".toList]
    let uses : List StashUse := [.put "kept".toList,
      .run Registry.listAndToc document ["[article_list]".toList, "[toc x:1]".toList]]
    let final := afterAll (uses ++ [.run Registry.listAndToc document texts]) {}
    let run := Registry.listAndToc.expand document texts { stash := ⟨["kept".toList]⟩ }
    final.entries.length = 3 ∧ (allEmitted uses {}).map (·.1) = [Stash.token 0, Stash.token 1] ∧
      (∀ emission ∈ allEmitted uses {}, final.resolve? emission.1 = some emission.2 ∧
        final.resolveAll emission.1 = emission.2) ∧
      run.1 = .ok [⟨Stash.token 1, true⟩, ⟨Stash.token 0, false⟩, ⟨"[TOC]".toList, true⟩] ∧
      run.1 = (Registry.listAndToc.expand document texts {}).1.map (List.map (Line.moved 1)) := by
  intro document texts uses final run
  have hlength : final.entries.length = 3 := by decide +kernel
  have hsettings : Settings.registry { allowed := Registry.listAndToc.allowed, defaultDepth := 2 } =
      .ok Registry.listAndToc := rfl
  have hroom : ["kept".toList].length +
      (Registry.listAndToc.expand document texts {}).2.stash.entries.length < 2 ^ 64 := by
    decide +kernel
  obtain ⟨hmoved, -⟩ := tokens_last.2 Registry.listAndToc 2 document texts ["kept".toList]
    (Registry.OnlyBuiltins.of_settings hsettings) hroom
  refine ⟨hlength, by decide +kernel, ?_, by decide +kernel, hmoved⟩
  exact (tokens_last.1 {} uses [.run Registry.listAndToc document texts]).2.2
    (hlength ▸ by decide)

end WikiDirectives
