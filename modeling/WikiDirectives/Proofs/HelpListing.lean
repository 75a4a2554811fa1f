import WikiDirectives.Proofs.AllowedNames
import WikiDirectives.Proofs.NameOrder

/-! The help listing of a registry shows just the handlers that pages may use, each with its own
description. Neither the order in which the handlers are kept nor that in which names were allowed and
handlers registered can be seen in it. -/
namespace WikiDirectives

lemma Dict.nodup_names {α : Type} (d : Dict α) : d.names.Nodup := by
  refine List.pairwise_map.mpr (d.ascending.imp fun hbefore heq => ?_)
  rw [heq, Text.before_irrefl] at hbefore
  exact Bool.false_ne_true hbefore

namespace Registry
variable {registry other : Registry} {name : Text} {help : Help} {kept : List (Text × Handler)}

/-! ## The listing and the look-ups -/

theorem lookup?_eq_some_iff {handler : Handler} : registry.lookup? name = some handler ↔
    (name, handler) ∈ registry.handlers.entries ∧ registry.isAllowed name = true := by
  rw [lookup?, ← Dict.get?_eq_some_iff]
  split_ifs with hallowed <;> simp [hallowed]

theorem mem_documented_iff : (name, help) ∈ registry.documented ↔
    ∃ handler, registry.lookup? name = some handler ∧ handler.help = help := by
  unfold documented
  rw [List.mem_map]
  constructor
  · rintro ⟨⟨other, handler⟩, hmem, heq⟩
    obtain ⟨rfl, rfl⟩ := Prod.mk.inj heq
    exact ⟨handler, lookup?_eq_some_iff.mpr (List.mem_filter.mp hmem), rfl⟩
  · rintro ⟨handler, hlookup, rfl⟩
    exact ⟨(name, handler), List.mem_filter.mpr (lookup?_eq_some_iff.mp hlookup), rfl⟩

lemma mem_names_documented_iff :
    name ∈ registry.documented.map (·.1) ↔ (registry.lookup? name).isSome = true := by
  rw [List.mem_map, Option.isSome_iff_exists]
  constructor
  · rintro ⟨⟨_, help⟩, hmem, rfl⟩
    obtain ⟨handler, hlookup, -⟩ := mem_documented_iff.mp hmem
    exact ⟨handler, hlookup⟩
  · rintro ⟨handler, hlookup⟩
    exact ⟨(name, handler.help), mem_documented_iff.mpr ⟨handler, hlookup, rfl⟩, rfl⟩

lemma ascending_documented (registry : Registry) : Ascending registry.documented :=
  List.pairwise_map.mpr (registry.handlers.ascending.sublist List.filter_sublist)

/-- Registries that find the same handlers have the same listing. -/
theorem documented_congr (h : ∀ name, registry.lookup? name = other.lookup? name) :
    registry.documented = other.documented := by
  refine Dict.eq_of_mem_iff (ascending_documented registry) (ascending_documented other) ?_
  rintro ⟨name, help⟩
  rw [mem_documented_iff, mem_documented_iff, h name]

/-! ## Handlers in any order -/

/-- The listing made of handlers as they are kept: the allowed ones, sorted by name at the end. -/
def sortedListing (registry : Registry) (kept : List (Text × Handler)) : List (Text × Help) :=
  let allowed := kept.filter fun (name, _) => registry.isAllowed name
  (allowed.map fun (name, handler) => (name, handler.help)).mergeSort
    fun a b => !Text.before b.1 a.1

/-- In whatever order the handlers are kept, they are sorted into the listing. -/
theorem sortedListing_eq (h : kept.Perm registry.handlers.entries) :
    registry.sortedListing kept = registry.documented := by
  let shown := (kept.filter fun (name, _) => registry.isAllowed name).map
    fun (name, handler) => (name, handler.help)
  have hshown : shown.Perm registry.documented := (h.filter _).map _
  have hnodup : (shown.map (·.1)).Nodup := by
    refine (hshown.map (·.1)).nodup_iff.mpr ?_
    exact Dict.nodup_names ⟨registry.documented, ascending_documented registry⟩
  refine Dict.eq_of_mem_iff (Text.ascending_mergeSort hnodup) (ascending_documented registry) ?_
  intro entry
  exact List.mem_mergeSort.trans hshown.mem_iff

end Registry

/-! ## Listings after a history -/

namespace Registration

/-- Whether an operation is about a name. -/
def isAbout (name : Text) (operation : Registration) : Bool := operation.names.contains name

/-- Who is first under a name is settled by the operations about this name, in their order. -/
theorem firstOffered?_of_filter_eq {history later : List Registration} {name : Text}
    (h : later.filter (isAbout name) = history.filter (isAbout name)) :
    firstOffered? later name = firstOffered? history name := by
  have hother : ∀ operation, isAbout name operation = false → name ∉ operation.names := by
    intro operation habout hname
    simp [isAbout, hname] at habout
  rw [← firstOffered?_filter hother later, h, firstOffered?_filter hother]

/-- The help listing is the set of handlers that pages may use. After any history the names in it ascend
strictly; a name is in it just if a handler is found under the name, and has the description of that very
handler. It is what sorting makes of the handlers in any order. And it stays the same when the allowed
names come in another order or more than once, and when operations change places such that those about
one name keep their order. -/
theorem documented_lists_lookups (allowed : List Text) (history : List Registration) :
    let registry := performAll history { allowed }
    (registry.documented.Pairwise fun a b => Text.before a.1 b.1 = true) ∧
    (∀ name, name ∈ registry.documented.map (·.1) ↔ (registry.lookup? name).isSome = true) ∧
    (∀ name help, (name, help) ∈ registry.documented ↔
      ∃ handler, registry.lookup? name = some handler ∧ handler.help = help) ∧
    (∀ kept, kept.Perm registry.handlers.entries →
      registry.sortedListing kept = registry.documented) ∧
    ∀ allowed' later, (∀ name, name ∈ allowed' ↔ name ∈ allowed) →
      (∀ name, later.filter (isAbout name) = history.filter (isAbout name)) →
      (performAll later { allowed := allowed' }).documented = registry.documented := by
  intro registry
  refine ⟨Registry.ascending_documented registry, fun name => Registry.mem_names_documented_iff,
    fun name help => Registry.mem_documented_iff, fun kept => Registry.sortedListing_eq, ?_⟩
  intro allowed' later hallowed hlater
  refine Registry.documented_congr fun name => ?_
  rw [lookup?_performAll, lookup?_performAll, firstOffered?_of_filter_eq (hlater name)]
  simp only [hallowed name]

/-- Handlers of one's own around the built-in ones, one of them under a name that has a handler already
and one under a name that is not allowed. In another order, with the allowed names in another order and
one of them twice, they are listed alike. -/
theorem documented_lists_lookups_reordered :
    let allowed : List Text := ["toc".toList, "ghost".toList, "note".toList]
    let allowed' : List Text := ["note".toList, "toc".toList, "ghost".toList, "toc".toList]
    let note : Registration := .register (leaving "note" "noted")
    let again : Registration := .register (leaving "note" "again")
    let hidden : Registration := .register (leaving "secret" "told")
    let history := [note, .builtins, hidden, again]
    let later := [hidden, note, again, .builtins]
    (∀ name, name ∈ allowed' ↔ name ∈ allowed) ∧
      (∀ name, later.filter (isAbout name) = history.filter (isAbout name)) ∧
      (performAll later { allowed := allowed' }).documented =
        (performAll history { allowed }).documented ∧
      (performAll history { allowed }).documented.map (·.1) = ["note".toList, "toc".toList] ∧
      (performAll history { allowed }).lookup? "note".toList = some (leaving "note" "noted") := by
  intro allowed allowed' note again hidden history later
  have hallowed : ∀ name, name ∈ allowed' ↔ name ∈ allowed := by
    intro name
    simp only [allowed, allowed', List.mem_cons, List.not_mem_nil, or_false]
    tauto
  have hlater : ∀ name, later.filter (isAbout name) = history.filter (isAbout name) := by
    intro name
    by_cases hnote : name = "note".toList
    · subst hnote
      rfl
    · by_cases hhidden : name = "secret".toList
      · subst hhidden
        rfl
      · have hown : ∀ operation ∈ [note, again, hidden], isAbout name operation = false := by
          simpa [isAbout, names, note, again, hidden, leaving] using ⟨hnote, hhidden⟩
        simp [later, history, List.filter_cons, hown]
  obtain ⟨-, -, -, -, hsame⟩ := documented_lists_lookups allowed history
  exact ⟨hallowed, hlater, hsame allowed' later hallowed hlater, by decide +kernel, rfl⟩

end Registration

end WikiDirectives
