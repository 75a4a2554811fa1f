import WikiDirectives.Proofs.BuiltinCalls
import WikiDirectives.Proofs.Numerals

/-! The depths of article lists. Which arguments an article list takes, what it does with them, and with
which fault it refuses all others without leaving a trace. -/
namespace WikiDirectives

/-! ## Accepted arguments -/

lemma Dict.mem_names_iff {α : Type} {d : Dict α} {name : Text} :
    name ∈ d.names ↔ d.contains name = true := by
  rw [contains, Option.isSome_iff_exists, names, List.mem_map]
  constructor
  · rintro ⟨⟨_, value⟩, hmem, rfl⟩
    exact ⟨value, get?_eq_some_iff.mpr hmem⟩
  · rintro ⟨value, hvalue⟩
    exact ⟨(name, value), get?_eq_some_iff.mp hvalue, rfl⟩

namespace Arguments
variable {args : Arguments} {accepted : List Text} {fault : Fault}

lemma expectOnly_eq_ok_iff : args.expectOnly accepted = .ok () ↔
    ∀ name, args.contains name = true → name ∈ accepted := by
  simp only [← Dict.mem_names_iff]
  unfold expectOnly
  split
  · next hnone => simpa using hnone
  · next name hsome =>
    have hrefused : name ∉ accepted := by simpa using List.find?_some hsome
    simp only [reduceCtorEq, false_iff]
    exact fun h => hrefused (h name (List.mem_of_find?_eq_some hsome))

/-- The argument that is refused comes first in name order of all that are not accepted. -/
theorem exists_of_expectOnly (h : args.expectOnly accepted = .error fault) :
    ∃ name, fault = .unexpectedArgument name ∧ args.contains name = true ∧ name ∉ accepted ∧
      ∀ other, args.contains other = true → other ∉ accepted →
        other = name ∨ Text.before name other = true := by
  unfold expectOnly at h
  split at h
  · simp at h
  · next name hfind =>
    obtain ⟨hrefused, front, back, hnames, hfront⟩ := List.find?_eq_some_iff_append.mp hfind
    refine ⟨name, (Except.error.inj h).symm, ?_, by simpa using hrefused, ?_⟩
    · rw [← Dict.mem_names_iff, hnames]
      simp
    · intro other hother hnot
      rw [← Dict.mem_names_iff, hnames, List.mem_append, List.mem_cons] at hother
      have hascending : (front ++ name :: back).Pairwise (Text.before · · = true) := by
        rw [← hnames]
        exact List.pairwise_map.mpr args.ascending
      rcases hother with hother | hother | hother
      · exact absurd (hfront other hother) (by simpa using hnot)
      · exact .inl hother
      · exact .inr ((List.pairwise_cons.mp (List.pairwise_append.mp hascending).2.1).1 other hother)

end Arguments

namespace Builtin
variable {defaultDepth depth depth' : ℕ} {args : Arguments} {fault : Fault}

/-! ## Depths -/

/-- The depth that arguments ask for: the default one if they have none, and otherwise the number that
the text denotes between its blanks, with or without a plus sign. -/
inductive Asks (defaultDepth : ℕ) (args : Arguments) : ℕ → Prop
  | absent (hdepth : args.get? depthArgument = none) : Asks defaultDepth args defaultDepth
  | given {content numeral : Text} (hdepth : args.get? depthArgument = some (.text content))
      (hnumeral : numeral.IsNumeral)
      (hcontent : content.trim = numeral ∨ content.trim = '+' :: numeral) :
      Asks defaultDepth args numeral.number

/-- A depth that an article list takes: there is no other argument, and it is not above the limit. -/
structure LegalDepth (defaultDepth : ℕ) (args : Arguments) (depth : ℕ) : Prop where
  declared : ∀ name, args.contains name = true → name = depthArgument
  asks : Asks defaultDepth args depth
  le : depth ≤ 16

/-- The fault of arguments without a legal depth: the first name that is not declared counts before a
depth without value, and that before a text which denotes no number of a word or one above the
limit. -/
inductive RefusedWith (defaultDepth : ℕ) (args : Arguments) : Fault → Prop
  | unexpected {name : Text} (hname : args.contains name = true) (hnot : name ≠ depthArgument)
      (hfirst : ∀ other, args.contains other = true → other ≠ depthArgument →
        other = name ∨ Text.before name other = true) :
      RefusedWith defaultDepth args (.unexpectedArgument name)
  | missing (hdeclared : ∀ name, args.contains name = true → name = depthArgument)
      (hflag : args.get? depthArgument = some .flag) :
      RefusedWith defaultDepth args (.missingValue depthArgument)
  | unreadable {content : Text} {error : NumeralError}
      (hdeclared : ∀ name, args.contains name = true → name = depthArgument)
      (hdepth : args.get? depthArgument = some (.text content))
      (hnumber : ∀ depth, Asks defaultDepth args depth → wordBound < depth) :
      RefusedWith defaultDepth args
        (.invalidArgument depthArgument content (.unreadable (.numeral error)))
  | tooDeep {depth : ℕ} (hdeclared : ∀ name, args.contains name = true → name = depthArgument)
      (hasks : Asks defaultDepth args depth) (hdepth : 16 < depth) :
      RefusedWith defaultDepth args
        (.invalidArgument depthArgument (Text.decimal depth) (.depthAbove 16))

lemma Asks.natural_eq {content : Text} (hasks : Asks defaultDepth args depth)
    (hcontent : args.get? depthArgument = some (.text content)) {bound : ℕ} (hbound : depth ≤ bound) :
    Numeral.natural bound content.trim = .ok depth := by
  cases hasks with
  | absent hdepth => simp [hdepth] at hcontent
  | given hdepth hnumeral htrim =>
    obtain rfl : _ = content := by simpa [hdepth] using hcontent
    exact Numeral.natural_eq_ok_iff.mpr ⟨_, hnumeral, htrim, rfl, hbound⟩

lemma Asks.unique (h : Asks defaultDepth args depth) (h' : Asks defaultDepth args depth') :
    depth = depth' := by
  have hasks := h
  cases h with
  | absent hdepth =>
    cases h' with
    | absent _ => rfl
    | given hdepth' _ _ => simp [hdepth] at hdepth'
  | given hdepth _ _ =>
    have hread := hasks.natural_eq hdepth (le_max_left _ depth')
    rw [h'.natural_eq hdepth (le_max_right _ _)] at hread
    exact (Except.ok.inj hread).symm

lemma RefusedWith.not_legal (h : RefusedWith defaultDepth args fault) :
    ¬ LegalDepth defaultDepth args depth := by
  intro hlegal
  cases h with
  | unexpected hname hnot _ => exact hnot (hlegal.declared _ hname)
  | missing _ hflag =>
    cases hlegal.asks with
    | absent hdepth => simp [hdepth] at hflag
    | given hdepth _ _ => simp [hdepth] at hflag
  | unreadable _ _ hnumber =>
    have hbound := hnumber depth hlegal.asks
    have hle := hlegal.le
    unfold wordBound at hbound
    omega
  | tooDeep _ hasks hdepth =>
    rw [hasks.unique hlegal.asks] at hdepth
    exact absurd hlegal.le (by omega)

/-- A result of reading the depth is right: a legal depth, or the fault of arguments without one. -/
def Decides (defaultDepth : ℕ) (args : Arguments) : Except Fault ℕ → Prop
  | .ok depth => LegalDepth defaultDepth args depth
  | .error fault => RefusedWith defaultDepth args fault

lemma decides_limit (hdeclared : ∀ name, args.contains name = true → name = depthArgument)
    (hasks : Asks defaultDepth args depth) :
    Decides defaultDepth args (if depth ≤ maxDepth then .ok depth
      else .error (.invalidArgument depthArgument (Text.decimal depth) (.depthAbove maxDepth))) := by
  split_ifs with hdepth
  · exact ⟨hdeclared, hasks, hdepth⟩
  · exact .tooDeep hdeclared hasks (by unfold maxDepth at hdepth; omega)

theorem decides_depthOf (defaultDepth : ℕ) (args : Arguments) :
    Decides defaultDepth args (depthOf defaultDepth args) := by
  unfold depthOf
  cases hexpect : args.expectOnly [depthArgument] with
  | error fault =>
    obtain ⟨name, rfl, hname, hnot, hfirst⟩ := Arguments.exists_of_expectOnly hexpect
    simp only [List.mem_singleton] at hnot hfirst
    exact .unexpected hname hnot hfirst
  | ok _ =>
    have hdeclared := Arguments.expectOnly_eq_ok_iff.mp hexpect
    simp only [List.mem_singleton] at hdeclared
    cases hdepth : args.get? depthArgument with
    | none =>
      have hread : args.read (Reader.natural wordBound) depthArgument = .ok none := by
        simp [Arguments.read, hdepth]
      simp only [hread, bind, Except.bind, Option.getD_none]
      exact decides_limit hdeclared (.absent hdepth)
    | some value =>
      cases value with
      | flag =>
        have hread : args.read (Reader.natural wordBound) depthArgument =
            .error (.missingValue depthArgument) := by simp [Arguments.read, hdepth]
        simp only [hread, bind, Except.bind]
        exact .missing hdeclared hdepth
      | text content =>
        cases hnatural : Numeral.natural wordBound content.trim with
        | error error =>
          have hread : args.read (Reader.natural wordBound) depthArgument =
              .error (.invalidArgument depthArgument content (.unreadable (.numeral error))) := by
            simp [Arguments.read, hdepth, Reader.natural, hnatural, Except.mapError]
          simp only [hread, bind, Except.bind]
          refine .unreadable hdeclared hdepth fun depth hasks => ?_
          by_contra hbound
          have hok := hasks.natural_eq hdepth (not_lt.mp hbound)
          simp [hnatural] at hok
        | ok number =>
          have hread : args.read (Reader.natural wordBound) depthArgument = .ok (some number) := by
            simp [Arguments.read, hdepth, Reader.natural, hnatural, Except.mapError]
          obtain ⟨numeral, hnumeral, htrim, rfl, -⟩ := Numeral.natural_eq_ok_iff.mp hnatural
          simp only [hread, bind, Except.bind, Option.getD_some]
          exact decides_limit hdeclared (.given hdepth hnumeral htrim)

theorem depthOf_eq_ok_iff :
    depthOf defaultDepth args = .ok depth ↔ LegalDepth defaultDepth args depth := by
  have hdecides := decides_depthOf defaultDepth args
  cases hdepthOf : depthOf defaultDepth args with
  | error fault =>
    rw [hdepthOf] at hdecides
    simp only [reduceCtorEq, false_iff]
    exact hdecides.not_legal
  | ok taken =>
    rw [hdepthOf] at hdecides
    rw [Except.ok.injEq]
    constructor
    · rintro rfl
      exact hdecides
    · intro hlegal
      exact hdecides.asks.unique hlegal.asks

/-- An article list takes exactly the legal depths. With one, it asks the document once, for one level
more than the depth, adds one content to the stash, which is the list of the answer cut to as many
levels, and its line is the token of that content. Without one, it fails with the fault that comes first,
and neither the stash nor the document has seen anything of it. -/
theorem articleList_takes_legal_depths (defaultDepth : ℕ) (args : Arguments) (document : Document)
    (number : ℕ) (session : Session) :
    let outcome :=
      ((articleList defaultDepth).script args ⟨document.title, number⟩).run document session
    ((∃ output, outcome.1 = .ok output) ↔ ∃ depth, LegalDepth defaultDepth args depth) ∧
      (∀ depth, LegalDepth defaultDepth args depth → outcome =
        (.ok (.line (Stash.token session.stash.entries.length)),
          { stash := ⟨session.stash.entries ++ [Html.articleList document.title
              ((document.children (depth + 1)).map (Article.pruned (depth + 1))) (depth + 1)]⟩
            events := session.events ++ [.asked (depth + 1)] })) ∧
      ((¬ ∃ depth, LegalDepth defaultDepth args depth) →
        ∃ fault, outcome = (.error fault, session) ∧ RefusedWith defaultDepth args fault) := by
  intro outcome
  have hrun : outcome = _ := run_articleList_script defaultDepth args document number session
  have hdecides := decides_depthOf defaultDepth args
  cases hdepthOf : depthOf defaultDepth args with
  | error fault =>
    rw [hdepthOf] at hdecides hrun
    have hnone : ¬ ∃ depth, LegalDepth defaultDepth args depth := fun ⟨_, hlegal⟩ =>
      hdecides.not_legal hlegal
    refine ⟨⟨?_, fun hlegal => absurd hlegal hnone⟩, ?_, fun _ => ⟨fault, hrun, hdecides⟩⟩
    · rintro ⟨output, houtput⟩
      simp [hrun] at houtput
    · intro depth hlegal
      exact absurd ⟨depth, hlegal⟩ hnone
  | ok taken =>
    rw [hdepthOf] at hdecides hrun
    refine ⟨⟨fun _ => ⟨taken, hdecides⟩, fun _ => ⟨_, by rw [hrun]⟩⟩, ?_, ?_⟩
    · intro depth hlegal
      rw [hrun, hdecides.asks.unique hlegal.asks]
      rfl
    · intro hnone
      exact absurd ⟨taken, hdecides⟩ hnone

/-- The greatest depth, with a sign, zeros and blanks, where the default one would be refused; and a
number that is a legal depth only if it wraps around at the end of a word. -/
theorem articleList_takes_legal_depths_limits :
    let document : Document := ⟨"Home".toList, fun _ => []⟩
    let session : Session := { stash := ⟨["<hr>".toList]⟩ }
    let run (args : Arguments) :=
      ((articleList wordBound).script args ⟨document.title, 1⟩).run document session
    let padded : Arguments := Dict.ofList [(depthArgument, .text " +0016\t".toList)]
    let wrapped : Arguments := Dict.ofList [(depthArgument, .text "18446744073709551632".toList)]
    LegalDepth wordBound padded 16 ∧
      run padded = (.ok (.line (Stash.token 1)),
        { stash := ⟨["<hr>".toList, Html.articleList "Home".toList [] 17]⟩, events := [.asked 17] }) ∧
      (¬ ∃ depth, LegalDepth wordBound wrapped depth) ∧
      ∃ fault, run wrapped = (.error fault, session) ∧ RefusedWith wordBound wrapped fault := by
  intro document session run padded wrapped
  have hasks : Asks wordBound padded (Text.number "0016".toList) :=
    .given rfl (by decide) (.inr (by decide))
  have hlegal : LegalDepth wordBound padded 16 := by
    refine ⟨fun name hname => ?_, hasks, le_refl 16⟩
    rw [← Dict.mem_names_iff] at hname
    exact List.mem_singleton.mp hname
  have hnone : ¬ ∃ depth, LegalDepth wordBound wrapped depth := by
    rintro ⟨depth, h⟩
    have hread := h.asks.natural_eq rfl h.le
    have hrefused : Numeral.natural 16 (Text.trim "18446744073709551632".toList) =
        .error .tooLarge := by decide
    exact absurd (hrefused.symm.trans hread) (by simp)
  refine ⟨hlegal, ?_, hnone, ?_⟩
  · exact (articleList_takes_legal_depths wordBound padded document 1 session).2.1 16 hlegal
  · exact (articleList_takes_legal_depths wordBound wrapped document 1 session).2.2 hnone

end Builtin

end WikiDirectives
