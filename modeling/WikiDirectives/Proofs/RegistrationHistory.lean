import WikiDirectives.Proofs.BuiltinCalls

/-! How a registry comes about: handlers are registered one by one, and the built-in ones are added at
any time and any number of times. The first handler that is offered under a name has it for good. -/
namespace WikiDirectives

/-! ## Operations -/

/-- An operation on a registry. -/
inductive Registration where
  | register (handler : Handler)
  | builtins

/-- What can be seen of a registry. -/
structure Registry.View where
  lookup : Text → Option Handler
  documented : List (Text × Help)
  isAllowed : Text → Bool
  summary : Text

def Registry.view (registry : Registry) : Registry.View :=
  ⟨registry.lookup?, registry.documented, registry.isAllowed, registry.summary⟩

namespace Registration

/-- The handlers that an operation brings. One whose name is no name is not among them. -/
def offers : Registration → List Handler
  | register handler => if isName handler.name then [handler] else []
  | builtins => Builtin.handlers 2

/-- The first handler that is offered under a name. -/
def firstOffered? (history : List Registration) (name : Text) : Option Handler :=
  (history.flatMap offers).find? fun handler => handler.name = name

/-- Whether a handler is offered under a name. -/
def Offered (history : List Registration) (name : Text) : Prop :=
  ∃ handler ∈ history.flatMap offers, handler.name = name

/-- Carries out an operation. -/
def perform : Registration → Registry → Except Fault Unit × Registry
  | register handler, registry => registry.register handler
  | builtins, registry => (.ok (), registry.withBuiltins)

/-- The registry after a history, failed operations among it. -/
def performAll : List Registration → Registry → Registry
  | [], registry => registry
  | operation :: history, registry => performAll history (operation.perform registry).2

/-- What each operation of a history returns, and what is seen of the registry after it. -/
def record : List Registration → Registry → List (Except Fault Unit × Registry.View)
  | [], _ => []
  | operation :: history, registry =>
    let (result, next) := operation.perform registry
    (result, next.view) :: record history next

variable {registry : Registry} {front history : List Registration} {name : Text}

lemma firstOffered?_cons (operation : Registration) (history : List Registration) (name : Text) :
    firstOffered? (operation :: history) name =
      (operation.offers.find? fun handler => handler.name = name).or (firstOffered? history name) := by
  rw [firstOffered?, List.flatMap_cons, List.find?_append]
  rfl

lemma firstOffered?_append (front back : List Registration) (name : Text) :
    firstOffered? (front ++ back) name =
      (firstOffered? front name).or (firstOffered? back name) := by
  rw [firstOffered?, List.flatMap_append, List.find?_append]
  rfl

lemma isSome_firstOffered?_iff : (firstOffered? history name).isSome = true ↔ Offered history name := by
  simp only [firstOffered?, List.find?_isSome, Offered, decide_eq_true_eq]

lemma firstOffered?_eq_none_iff : firstOffered? history name = none ↔ ¬ Offered history name := by
  rw [← isSome_firstOffered?_iff, Option.not_isSome_iff_eq_none]

lemma performAll_append (front back : List Registration) (registry : Registry) :
    performAll (front ++ back) registry = performAll back (performAll front registry) := by
  induction front generalizing registry with
  | nil => rfl
  | cons operation front ih => exact ih (operation.perform registry).2

lemma record_append (front back : List Registration) (registry : Registry) :
    record (front ++ back) registry =
      record front registry ++ record back (performAll front registry) := by
  induction front generalizing registry with
  | nil => rfl
  | cons operation front ih => exact congrArg (_ :: ·) (ih (operation.perform registry).2)

lemma length_record (history : List Registration) (registry : Registry) :
    (record history registry).length = history.length := by
  induction history generalizing registry with
  | nil => rfl
  | cons operation history ih => exact congrArg (· + 1) (ih (operation.perform registry).2)

/-! ## One operation -/

/-- What registering a handler returns, by the two questions that are asked in turn. -/
theorem perform_register (registry : Registry) (handler : Handler) :
    (register handler).perform registry =
      if isName handler.name = false then (.error (.invalidName handler.name), registry)
      else if (registry.handlers.get? handler.name).isSome then
        (.error (.duplicateHandler handler.name), registry)
      else (.ok (),
        { registry with handlers := registry.handlers.insert handler.name handler }) := by
  unfold perform Registry.register Dict.contains
  by_cases hname : isName handler.name = true
  · by_cases htaken : (registry.handlers.get? handler.name).isSome = true
    · simp [hname, htaken]
    · simp [hname, htaken]
  · simp [hname]

/-- An operation that fails leaves nothing behind. -/
lemma perform_of_ne_ok {operation : Registration} (h : (operation.perform registry).1 ≠ .ok ()) :
    (operation.perform registry).2 = registry := by
  cases operation with
  | builtins => exact absurd rfl h
  | register handler =>
    rw [perform_register] at h ⊢
    split_ifs at h ⊢
    · rfl
    · rfl
    · exact absurd rfl h

lemma allowed_perform (operation : Registration) (registry : Registry) :
    (operation.perform registry).2.allowed = registry.allowed := by
  cases operation with
  | builtins => rfl
  | register handler =>
    rw [perform_register]
    split_ifs <;> rfl

/-- New entries go where there is none, and of two under one name the first is new. -/
lemma get?_foldl_insertNew (handlers : List Handler) (d : Dict Handler) (name : Text) :
    (handlers.foldl (fun d handler => d.insertNew handler.name handler) d).get? name =
      (d.get? name).or (handlers.find? fun handler => handler.name = name) := by
  induction handlers generalizing d with
  | nil => simp
  | cons handler handlers ih =>
    rw [List.foldl_cons, ih, Dict.get?_insertNew, Option.or_assoc]
    by_cases hname : handler.name = name
    · simp [hname]
    · simp [hname, Ne.symm hname]

/-- An operation gives a name to the first handler that it offers under it, if the name is free. -/
theorem get?_perform (operation : Registration) (registry : Registry) (name : Text) :
    (operation.perform registry).2.handlers.get? name =
      (registry.handlers.get? name).or
        (operation.offers.find? fun handler => handler.name = name) := by
  cases operation with
  | builtins => exact get?_foldl_insertNew (Builtin.handlers 2) registry.handlers name
  | register handler =>
    rw [perform_register, offers]
    by_cases hname : isName handler.name = true
    · by_cases htaken : (registry.handlers.get? handler.name).isSome = true
      · -- The name has a handler already, so that the one offered under it does not count.
        obtain ⟨old, hold⟩ := Option.isSome_iff_exists.mp htaken
        by_cases hsame : handler.name = name
        · subst hsame
          simp [hname, hold]
        · simp [hname, hold, hsame]
      · have hfree := Option.not_isSome_iff_eq_none.mp htaken
        by_cases hsame : handler.name = name
        · subst hsame
          simp [hname, hfree, Dict.get?_insert]
        · simp [hname, hfree, hsame, Ne.symm hsame, Dict.get?_insert]
    · simp [hname]

/-! ## Histories -/

theorem allowed_performAll (history : List Registration) (registry : Registry) :
    (performAll history registry).allowed = registry.allowed := by
  induction history generalizing registry with
  | nil => rfl
  | cons operation history ih => exact (ih _).trans (allowed_perform operation registry)

theorem get?_performAll (history : List Registration) (registry : Registry) (name : Text) :
    (performAll history registry).handlers.get? name =
      (registry.handlers.get? name).or (firstOffered? history name) := by
  induction history generalizing registry with
  | nil => simp [performAll, firstOffered?]
  | cons operation history ih =>
    rw [performAll, ih, get?_perform, Option.or_assoc, firstOffered?_cons]

/-- The handlers of a registry that starts empty. -/
lemma get?_performAll_empty (allowed : List Text) (history : List Registration) (name : Text) :
    (performAll history { allowed }).handlers.get? name = firstOffered? history name := by
  rw [get?_performAll, Dict.get?_empty, Option.none_or]

theorem lookup?_performAll (allowed : List Text) (history : List Registration) (name : Text) :
    (performAll history { allowed }).lookup? name =
      if name ∈ allowed then firstOffered? history name else none := by
  rw [Registry.lookup?, Registry.isAllowed, allowed_performAll, get?_performAll_empty]
  simp only [List.contains_iff_mem]

/-- What registering a handler returns after a history, by what is offered in it. -/
theorem register_result (allowed : List Text) (front : List Registration) (handler : Handler) :
    let result := ((register handler).perform (performAll front { allowed })).1
    (result = .error (.invalidName handler.name) ↔ isName handler.name = false) ∧
      (result = .error (.duplicateHandler handler.name) ↔
        isName handler.name = true ∧ Offered front handler.name) ∧
      (result = .ok () ↔ isName handler.name = true ∧ ¬ Offered front handler.name) := by
  rw [perform_register, get?_performAll_empty, ← isSome_firstOffered?_iff]
  by_cases hname : isName handler.name = true
  · by_cases hoffered : (firstOffered? front handler.name).isSome = true
    · simp [hname, hoffered]
    · simp [hname, hoffered]
  · simp [hname]

/-- Without an operation that fails the others return and show what they do with it. -/
theorem record_of_ne_ok {operation : Registration}
    (h : (operation.perform (performAll front registry)).1 ≠ .ok ()) (back : List Registration) :
    record (front ++ back) registry =
        (record (front ++ operation :: back) registry).eraseIdx front.length ∧
      performAll (front ++ back) registry = performAll (front ++ operation :: back) registry := by
  have hsame := perform_of_ne_ok h
  constructor
  · rw [record_append, record_append, List.eraseIdx_append_of_length_le (length_record _ _).le,
      length_record, Nat.sub_self]
    simp only [record, hsame, List.eraseIdx_cons_zero]
  · rw [performAll_append, performAll_append, performAll, hsame]

/-- The law of histories. After any operations a name has a handler to run if it is allowed, namely the
first one that was offered under it. A handler is refused for a bad name, and else if one was offered
under its name before; and an operation that fails might as well not have been there: all others return
the same without it, and the registry looks the same after each of them and at the end. -/
theorem history_decides (allowed : List Text) :
    (∀ history name handler,
      (performAll history { allowed }).lookup? name = some handler ↔
        name ∈ allowed ∧ firstOffered? history name = some handler) ∧
    ∀ front handler back,
      let history := front ++ register handler :: back
      let result := ((register handler).perform (performAll front { allowed })).1
      (result = .error (.invalidName handler.name) ↔ isName handler.name = false) ∧
      (result = .error (.duplicateHandler handler.name) ↔
        isName handler.name = true ∧ Offered front handler.name) ∧
      (result = .ok () ↔ isName handler.name = true ∧ ¬ Offered front handler.name) ∧
      (result ≠ .ok () →
        record (front ++ back) { allowed } =
            (record history { allowed }).eraseIdx front.length ∧
          (performAll (front ++ back) { allowed }).view = (performAll history { allowed }).view) := by
  constructor
  · intro history name handler
    rw [lookup?_performAll]
    split_ifs with hallowed <;> simp [hallowed]
  · intro front handler back history result
    obtain ⟨hinvalid, hduplicate, hok⟩ := register_result allowed front handler
    refine ⟨hinvalid, hduplicate, hok, fun hfails => ?_⟩
    obtain ⟨hrecord, hfinal⟩ := record_of_ne_ok hfails back
    exact ⟨hrecord, congrArg Registry.view hfinal⟩

/-- A handler that leaves a line with some text. -/
def leaving (name text : String) : Handler where
  name := name.toList
  help := { short := [], long := [], sample := [] }
  script := fun _ _ => .line text.toList

/-- A table of contents of one's own comes before the built-in one and stays; two more handlers are
refused after it. -/
theorem history_decides_ownToc :
    let allowed : List Text := ["toc".toList, "two words".toList]
    let own := leaving "toc" "contents"
    let front : List Registration :=
      [.register own, .builtins, .register (leaving "two words" "")]
    let history := front ++ [.register (leaving "toc" "later"), .builtins]
    let result := ((register (leaving "toc" "later")).perform (performAll front { allowed })).1
    (performAll history { allowed }).lookup? "toc".toList = some own ∧
      result = .error (.duplicateHandler "toc".toList) ∧
      record (front ++ [.builtins]) { allowed } = (record history { allowed }).eraseIdx 3 ∧
      (performAll (front ++ [.builtins]) { allowed }).view =
        (performAll history { allowed }).view := by
  intro allowed own front history result
  obtain ⟨hlookup, hresults⟩ := history_decides allowed
  obtain ⟨-, hduplicate, hok, hdeleted⟩ := hresults front (leaving "toc" "later") [.builtins]
  have hname : isName "toc".toList = true := by decide
  have hoffered : Offered front "toc".toList := isSome_firstOffered?_iff.mp rfl
  refine ⟨(hlookup _ _ _).mpr ⟨by decide, rfl⟩, hduplicate.mpr ⟨hname, hoffered⟩, ?_⟩
  exact hdeleted fun h => (hok.mp h).2 hoffered

end Registration

end WikiDirectives
