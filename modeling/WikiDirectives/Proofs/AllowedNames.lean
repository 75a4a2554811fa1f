import WikiDirectives.Proofs.FailedRuns
import WikiDirectives.Proofs.RegistrationHistory

/-! The allowed names are a boundary. A run depends on a registry only by the handlers of its allowed
names: other handlers, allowed names without a handler, and the order in which different names got
their handlers make no difference to it. -/
namespace WikiDirectives

/-! ## Runs that find the same handlers -/

/-- Two sessions with the same stash in which the document was asked for the same depths. What else was
noted in them may differ. -/
structure Session.Alike (session other : Session) : Prop where
  stash : session.stash = other.stash
  depths : session.depths = other.depths

lemma Session.Alike.refl (session : Session) : session.Alike session := ⟨rfl, rfl⟩

namespace Registry
variable {registry other : Registry}

/-- What a run of lines gives: its lines or its fault, the stash that it leaves, and the depths that the
document is asked for. -/
def outcome (registry : Registry) (document : Document) (texts : List Text) (stash : Stash) :
    Except LineFault (List Line) × Stash × List ℕ :=
  let run := registry.expand document texts { stash }
  (run.1, run.2.stash, run.2.depths)

lemma dispatched?_congr (h : ∀ name, registry.lookup? name = other.lookup? name) (text : Text) :
    registry.dispatched? text = other.dispatched? text := by
  unfold dispatched?
  simp only [h]

/-- A line for which both registries have the same handler, or none. -/
theorem expandLine_alike {text : Text} (h : registry.dispatched? text = other.dispatched? text)
    (document : Document) (number : ℕ) {session session' : Session} (halike : session.Alike session') :
    (registry.expandLine document number text session).1 =
        (other.expandLine document number text session').1 ∧
      (registry.expandLine document number text session).2.Alike
        (other.expandLine document number text session').2 := by
  cases hdispatched : other.dispatched? text with
  | none =>
    rw [expandLine_of_none hdispatched, expandLine_of_none (h.trans hdispatched)]
    refine ⟨rfl, halike.stash, ?_⟩
    rw [depths_passing, depths_passing, halike.depths]
  | some found =>
    rw [expandLine_of_call ⟨number, found.1, found.2, session'.stash⟩ rfl rfl hdispatched,
      expandLine_of_call ⟨number, found.1, found.2, session'.stash⟩ rfl halike.stash.symm
        (h.trans hdispatched)]
    refine ⟨rfl, rfl, ?_⟩
    rw [Call.depths_leaves, Call.depths_leaves, halike.depths]

theorem expandFrom_alike (h : ∀ name, registry.lookup? name = other.lookup? name)
    (document : Document) (number : ℕ) (texts : List Text) {session session' : Session}
    (halike : session.Alike session') :
    (registry.expandFrom document number texts session).1 =
        (other.expandFrom document number texts session').1 ∧
      (registry.expandFrom document number texts session).2.Alike
        (other.expandFrom document number texts session').2 := by
  induction texts generalizing number session session' with
  | nil => exact ⟨rfl, halike⟩
  | cons text texts ih =>
    obtain ⟨hline, hnext⟩ := expandLine_alike (dispatched?_congr h text) document number halike
    rcases hexpand : registry.expandLine document number text session with ⟨result, next⟩
    rcases hexpand' : other.expandLine document number text session' with ⟨result', next'⟩
    rw [hexpand, hexpand'] at hline hnext
    obtain rfl : result = result' := hline
    cases result with
    | error fault =>
      rw [expandFrom_cons_of_error hexpand, expandFrom_cons_of_error hexpand']
      exact ⟨rfl, hnext⟩
    | ok line? =>
      obtain ⟨hrest, hfinal⟩ := ih (number + 1) hnext
      rw [expandFrom_cons_of_ok hexpand, expandFrom_cons_of_ok hexpand', hrest]
      exact ⟨rfl, hfinal⟩

/-- A run sees no more of a registry than its look-ups. -/
theorem outcome_congr (h : ∀ name, registry.lookup? name = other.lookup? name) (document : Document)
    (texts : List Text) (stash : Stash) :
    registry.outcome document texts stash = other.outcome document texts stash := by
  obtain ⟨hlines, hfinal⟩ := expandFrom_alike h document 1 texts (.refl { stash })
  unfold outcome expand
  dsimp only
  rw [hlines, hfinal.stash, hfinal.depths]

end Registry

/-! ## Changes to a history -/

namespace Registration

/-- The names that an operation is about. -/
def names : Registration → List Text
  | register handler => [handler.name]
  | builtins => (Builtin.handlers 2).map (·.name)

lemma name_mem_of_mem_offers {operation : Registration} {handler : Handler}
    (h : handler ∈ operation.offers) : handler.name ∈ operation.names := by
  cases operation with
  | builtins => exact List.mem_map_of_mem h
  | register other =>
    rw [offers] at h
    split_ifs at h
    · rw [List.mem_singleton.mp h]
      exact List.mem_singleton_self _
    · simp at h

lemma find?_offers_eq_none {operation : Registration} {name : Text} (h : name ∉ operation.names) :
    (operation.offers.find? fun handler => handler.name = name) = none := by
  rw [List.find?_eq_none]
  intro handler hmem hname
  exact h (decide_eq_true_eq.mp hname ▸ name_mem_of_mem_offers hmem)

/-- Histories that differ in the order of operations which have no name in common. -/
inductive Reordered : List Registration → List Registration → Prop
  | refl (history : List Registration) : Reordered history history
  | swap (front : List Registration) {first second : Registration} (back : List Registration)
      (apart : ∀ name ∈ first.names, name ∉ second.names) :
      Reordered (front ++ first :: second :: back) (front ++ second :: first :: back)
  | trans {history middle later : List Registration} (first : Reordered history middle)
      (second : Reordered middle later) : Reordered history later

/-- The order of operations on different names does not matter to who is first under a name. -/
theorem Reordered.firstOffered?_eq {history later : List Registration} (h : Reordered history later)
    (name : Text) : firstOffered? history name = firstOffered? later name := by
  induction h with
  | refl history => rfl
  | @swap front first second back apart =>
    simp only [firstOffered?_append, firstOffered?_cons]
    by_cases hname : name ∈ first.names
    · simp only [find?_offers_eq_none (apart name hname), Option.none_or]
    · simp only [find?_offers_eq_none hname, Option.none_or]
  | trans _ _ first second => exact first.trans second

/-- Operations that are about other names can be left out. -/
theorem firstOffered?_filter {keep : Registration → Bool} {name : Text}
    (h : ∀ operation, keep operation = false → name ∉ operation.names)
    (history : List Registration) :
    firstOffered? (history.filter keep) name = firstOffered? history name := by
  induction history with
  | nil => rfl
  | cons operation history ih =>
    cases hkeep : keep operation with
    | true => rw [List.filter_cons_of_pos hkeep, firstOffered?_cons, firstOffered?_cons, ih]
    | false =>
      rw [List.filter_cons_of_neg (by simp [hkeep]), ih, firstOffered?_cons,
        find?_offers_eq_none (h operation hkeep), Option.none_or]

/-- Whether an operation registers a handler under a name that is not allowed. -/
def isHidden (allowed : List Text) : Registration → Bool
  | register handler => !allowed.contains handler.name
  | builtins => false

lemma not_mem_names_of_isHidden {allowed : List Text} {operation : Registration} {name : Text}
    (h : operation.isHidden allowed = true) (hname : name ∈ allowed) : name ∉ operation.names := by
  cases operation with
  | builtins => simp [isHidden] at h
  | register handler =>
    rw [names, List.mem_singleton]
    rintro rfl
    simp [isHidden, hname] at h

/-- The allowed names are a boundary. Handlers registered under other names can be left out, names under
which nothing is offered need not be allowed, and operations on different names can come in any order:
every run gives the same lines or the same fault, leaves the same stash and asks the document for the
same depths. -/
theorem outcome_boundary (allowed narrowed : List Text) (history later : List Registration)
    (keep : Registration → Bool)
    (hkeep : ∀ operation, keep operation = false → operation.isHidden allowed = true)
    (hlater : Reordered (history.filter keep) later)
    (hnarrowed : ∀ name ∈ narrowed, name ∈ allowed)
    (hoffered : ∀ name ∈ allowed, Offered history name → name ∈ narrowed)
    (document : Document) (texts : List Text) (stash : Stash) :
    (performAll later { allowed := narrowed }).outcome document texts stash =
      (performAll history { allowed }).outcome document texts stash := by
  refine Registry.outcome_congr (fun name => ?_) document texts stash
  rw [lookup?_performAll, lookup?_performAll]
  by_cases hallowed : name ∈ allowed
  · have hfirst : firstOffered? later name = firstOffered? history name := by
      rw [← hlater.firstOffered?_eq]
      apply firstOffered?_filter
      intro operation hremoved
      exact not_mem_names_of_isHidden (hkeep operation hremoved) hallowed
    rw [hfirst, if_pos hallowed]
    by_cases hmem : name ∈ narrowed
    · rw [if_pos hmem]
    · -- A name that is allowed no more was offered no handler.
      have hnone : ¬ Offered history name := fun hoffer => hmem (hoffered name hallowed hoffer)
      rw [if_neg hmem, firstOffered?_eq_none_iff.mpr hnone]
  · have hmem : name ∉ narrowed := fun hmem => hallowed (hnarrowed name hmem)
    rw [if_neg hallowed, if_neg hmem]

/-- A handler that is not allowed is left out, a name without a handler is allowed no more, and a handler
of one's own comes after the built-in ones instead of before them. -/
theorem outcome_boundary_ownNote :
    let allowed : List Text := ["toc".toList, "ghost".toList, "note".toList]
    let narrowed : List Text := ["note".toList, "toc".toList]
    let note : Registration := .register (leaving "note" "noted")
    let hidden : Registration := .register (leaving "secret" "told")
    let history := [hidden, note, .builtins, hidden]
    let texts : List Text :=
      ["[note]".toList, "[secret]".toList, "[ghost]".toList, "[toc x:1]".toList]
    let document : Document := ⟨"Home".toList, fun _ => []⟩
    Reordered (history.filter fun operation => !operation.isHidden allowed) [.builtins, note] ∧
      ((performAll history { allowed }).outcome document texts {}).1 =
        .error ⟨4, "toc".toList, .unexpectedArgument "x".toList⟩ ∧
      (performAll [.builtins, note] { allowed := narrowed }).outcome document texts {} =
        (performAll history { allowed }).outcome document texts {} := by
  intro allowed narrowed note hidden history texts document
  have hreordered : Reordered (history.filter fun operation => !operation.isHidden allowed)
      [.builtins, note] := .swap [] [] (by decide)
  refine ⟨hreordered, by decide +kernel, ?_⟩
  refine outcome_boundary allowed narrowed history [.builtins, note]
    (fun operation => !operation.isHidden allowed) (by simp) hreordered (by decide) ?_ document texts {}
  intro name hname hoffer
  rw [← isSome_firstOffered?_iff] at hoffer
  have hcases : name = "toc".toList ∨ name = "ghost".toList ∨ name = "note".toList := by
    simpa [allowed] using hname
  rcases hcases with rfl | rfl | rfl
  · decide
  · exact absurd hoffer (by decide +kernel)
  · decide

end Registration

end WikiDirectives
