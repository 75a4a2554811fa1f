import WikiDirectives.Proofs.Detection
import WikiDirectives.Proofs.ExpansionRun
import WikiDirectives.Settings.Basic

/-! Names of handlers and names in directives. Both are words, but by two classes of characters: the
module tells on which characters these differ, and that names without such a character can be
registered, allowed and called just as they can be written. -/
namespace WikiDirectives

/-! ## The two classes -/

namespace CharRanges

/-- Whether no range of one set meets a range of the other. -/
def apart (ranges others : CharRanges) : Bool :=
  ranges.all fun range => others.all fun other => range.2 < other.1 || other.2 < range.1

theorem covers_eq_false_of_apart {ranges others : CharRanges} {n : ℕ}
    (hapart : ranges.apart others = true) (h : ranges.covers n = true) : others.covers n = false := by
  by_contra hother
  obtain ⟨range, hrange, hlow, hhigh⟩ := exists_of_covers h
  obtain ⟨other, hmem, hlow', hhigh'⟩ := exists_of_covers (Bool.eq_true_of_not_eq_false hother)
  have hdisjoint : range.2 < other.1 ∨ other.2 < range.1 := by
    simpa using List.all_eq_true.mp (List.all_eq_true.mp hapart range hrange) other hmem
  omega

end CharRanges

/-- The characters that a handler's name is made of. -/
def isHandlerChar (c : Char) : Bool := isAlphanumeric c || c == '_'

/-- A character of handlers' names that no directive is read with: a letter or digit that is new in
the latest version of Unicode, or a number that is neither a decimal digit nor alphabetic. -/
def Unreadable (c : Char) : Prop :=
  isAlphanumeric c = true ∧ (isRecent c = true ∨ isOtherNumber c = true ∧ isAlphabetic c = false)

/-- A word character that no handler's name has: a mark, a joiner, or a connector other than the low
line, unless it counts as a letter or number. -/
def Unacceptable (c : Char) : Prop :=
  isAlphanumeric c = false ∧ c ≠ '_' ∧ isRecent c = false ∧
    (isMark c = true ∨ isConnector c = true ∨ isJoinControl c = true)

instance (c : Char) : Decidable (Unreadable c) := inferInstanceAs (Decidable (_ ∧ _))
instance (c : Char) : Decidable (Unacceptable c) := inferInstanceAs (Decidable (_ ∧ _))

variable {c : Char}

lemma isWord_lowLine : isWord '_' = true := rfl

/-- The numbers besides the decimal digits are no marks, no connectors and no joiners. -/
lemma isWord_eq_isAlphabetic (h : isOtherNumber c = true) :
    isWord c = (isAlphabetic c && !isRecent c) := by
  have hmark : isMark c = false :=
    CharRanges.covers_eq_false_of_apart (by decide +kernel : otherNumberRanges.apart _ = true) h
  have hdecimal : isDecimal c = false :=
    CharRanges.covers_eq_false_of_apart (by decide +kernel : otherNumberRanges.apart _ = true) h
  have hconnector : isConnector c = false :=
    CharRanges.covers_eq_false_of_apart (by decide +kernel : otherNumberRanges.apart _ = true) h
  have hjoin : isJoinControl c = false := by
    have hjoiners : CharRanges.covers [(0x200C, 0x200D)] c.toNat = false :=
      CharRanges.covers_eq_false_of_apart (by decide +kernel : otherNumberRanges.apart _ = true) h
    simp only [CharRanges.covers] at hjoiners
    simp only [isJoinControl]
    split_ifs at hjoiners <;> simp <;> omega
  simp [isWord, hmark, hdecimal, hconnector, hjoin]

theorem unreadable_iff : Unreadable c ↔ isHandlerChar c = true ∧ isWord c = false := by
  constructor
  · rintro ⟨halphanumeric, hrecent | ⟨hother, halphabetic⟩⟩
    · exact ⟨by simp [isHandlerChar, halphanumeric], by simp [isWord, hrecent]⟩
    · refine ⟨by simp [isHandlerChar, halphanumeric], ?_⟩
      rw [isWord_eq_isAlphabetic hother, halphabetic, Bool.false_and]
  · rintro ⟨hhandler, hword⟩
    have hlowLine : c ≠ '_' := by
      rintro rfl
      simp [isWord_lowLine] at hword
    have halphanumeric : isAlphanumeric c = true := by simpa [isHandlerChar, hlowLine] using hhandler
    refine ⟨halphanumeric, ?_⟩
    cases hrecent : isRecent c with
    | true => exact .inl rfl
    | false =>
      have hnone : isAlphabetic c = false ∧ isDecimal c = false := by
        simp only [isWord, hrecent, Bool.not_false, Bool.and_true, Bool.or_eq_false_iff] at hword
        exact ⟨hword.1.1.1.1, hword.1.1.2⟩
      exact .inr ⟨by simpa [isAlphanumeric, hnone] using halphanumeric, hnone.1⟩

theorem unacceptable_iff : Unacceptable c ↔ isHandlerChar c = false ∧ isWord c = true := by
  constructor
  · rintro ⟨halphanumeric, hlowLine, hrecent, hkind⟩
    refine ⟨by simp [isHandlerChar, halphanumeric, hlowLine], ?_⟩
    rcases hkind with hkind | hkind | hkind <;> simp [isWord, hrecent, hkind]
  · rintro ⟨hhandler, hword⟩
    obtain ⟨halphanumeric, hlowLine⟩ : isAlphanumeric c = false ∧ c ≠ '_' := by
      simpa [isHandlerChar] using hhandler
    have hnone : isAlphabetic c = false ∧ isDecimal c = false := by
      simp only [isAlphanumeric, Bool.or_eq_false_iff] at halphanumeric
      exact halphanumeric.1
    obtain ⟨hkind, hrecent⟩ :
        ((isMark c = true ∨ isConnector c = true) ∨ isJoinControl c = true) ∧ isRecent c = false := by
      simpa [isWord, hnone] using hword
    exact ⟨halphanumeric, hlowLine, hrecent, or_assoc.mp hkind⟩

/-! ## Names -/

variable {name : Text}

lemma isName_iff : isName name = true ↔ name ≠ [] ∧ ∀ c ∈ name, isHandlerChar c = true := by
  simp [isName, isHandlerChar]

/-- A name without characters of only one class is a handler's name if and only if it is a word. -/
theorem isName_iff_isWord (h : ∀ c ∈ name, ¬ Unreadable c ∧ ¬ Unacceptable c) :
    isName name = true ↔ name.IsWord := by
  have hsame : ∀ c ∈ name, isHandlerChar c = isWord c := fun c hc => by
    have hreadable := mt unreadable_iff.mpr (h c hc).1
    have hacceptable := mt unacceptable_iff.mpr (h c hc).2
    cases hhandler : isHandlerChar c <;> cases hword : isWord c <;> simp_all
  rw [isName_iff]
  exact and_congr_right fun _ => forall₂_congr fun c hc => by rw [hsame c hc]

/-- A name alone in brackets. -/
def bracketed (name : Text) : Text := '[' :: (name ++ [']'])

namespace Invocation

lemma isWord_of_detect {line : Text} {invocation : Invocation} (h : detect line = some invocation) :
    invocation.name.IsWord := by
  have hdetected := detected_detect line
  rw [h] at hdetected
  obtain ⟨_, _, _, hdec, -⟩ := hdetected
  exact hdec.isWord_name

/-- A name in brackets is read as that name if and only if it is a word. -/
theorem detect_bracketed_iff : detect (bracketed name) = some ⟨name, none⟩ ↔ name.IsWord := by
  constructor
  · exact isWord_of_detect
  · intro hword
    rw [bracketed, detect, if_pos rfl, at?_closing hword, Option.some_or]

end Invocation

/-! ## Registered and allowed names -/

namespace Registry
variable {registry next : Registry} {handler : Handler}

lemma register_of_not_isName (h : isName handler.name = false) :
    registry.register handler = (.error (.invalidName handler.name), registry) := by
  simp [register, h]

lemma not_isName_of_register (h : (registry.register handler).1 = .error (.invalidName handler.name)) :
    isName handler.name = false := by
  unfold register at h
  split_ifs at h with hname
  · simpa using hname
  · simp at h

theorem register_eq_ok (h : registry.register handler = (.ok (), next)) :
    isName handler.name = true ∧ next.handlers.get? handler.name = some handler := by
  unfold register at h
  split_ifs at h with hname hfree
  · simp at h
  · simp at h
  · obtain ⟨-, rfl⟩ := Prod.mk.inj h
    refine ⟨by simpa using hname, ?_⟩
    rw [Dict.get?_insert, if_pos rfl]

theorem dispatched?_bracketed (hregister : registry.register handler = (.ok (), next))
    (hallowed : next.isAllowed handler.name = true) (hword : handler.name.IsWord) :
    next.dispatched? (bracketed handler.name) = some (⟨handler.name, none⟩, handler) := by
  have hlookup : next.lookup? handler.name = some handler := by
    rw [lookup?, if_pos hallowed, (register_eq_ok hregister).2]
  exact dispatched?_eq_some_iff.mpr ⟨Invocation.detect_bracketed_iff.mpr hword, hlookup⟩

end Registry

/-- A name that settings are refused for is no handler's name. -/
theorem Settings.isName_of_checkNames {names : List Text}
    (h : Settings.checkNames names = .error (.invalidName name)) : isName name = false := by
  induction names with
  | nil => simp [Settings.checkNames] at h
  | cons other names ih =>
    rw [Settings.checkNames] at h
    split_ifs at h with hempty hname
    · simp at h
    · exact ih h
    · obtain rfl : other = name := by simpa using h
      simpa using hname

/-- The names of handlers and those of directives are the same but for names with a character of only
one class. A name without one can be registered if and only if it can be written, its handler is
called for it in brackets, and nothing refuses it once it is written. A name with an unreadable
character is found in no line, and one with an unacceptable character is always refused, which leaves the
registry as it was. -/
theorem isName_iff_detect (name : Text) :
    ((∀ c ∈ name, ¬ Unreadable c ∧ ¬ Unacceptable c) →
      (isName name = true ↔ Invocation.detect (bracketed name) = some ⟨name, none⟩) ∧
      (∀ (registry next : Registry) (handler : Handler), handler.name = name →
        registry.register handler = (.ok (), next) → next.isAllowed name = true →
          next.dispatched? (bracketed name) = some (⟨name, none⟩, handler)) ∧
      ∀ line invocation, Invocation.detect line = some invocation → invocation.name = name →
        (∀ (registry : Registry) (handler : Handler), handler.name = name →
          (registry.register handler).1 ≠ .error (.invalidName name)) ∧
        ∀ names, Settings.checkNames names ≠ .error (.invalidName name)) ∧
    (∀ c ∈ name, Unreadable c →
      ∀ line invocation, Invocation.detect line = some invocation → invocation.name ≠ name) ∧
    ∀ c ∈ name, Unacceptable c → ∀ (registry : Registry) (handler : Handler), handler.name = name →
      registry.register handler = (.error (.invalidName name), registry) := by
  refine ⟨fun hagree => ?_, fun c hc hunreadable line invocation hdetect => ?_,
    fun c hc hunacceptable registry handler hhandler => ?_⟩
  · have hword := isName_iff_isWord hagree
    refine ⟨hword.trans Invocation.detect_bracketed_iff.symm, ?_, ?_⟩
    · rintro registry next handler rfl hregister hallowed
      have hname := (Registry.register_eq_ok hregister).1
      exact Registry.dispatched?_bracketed hregister hallowed (hword.mp hname)
    · rintro line invocation hdetect rfl
      have hname := hword.mpr (Invocation.isWord_of_detect hdetect)
      refine ⟨fun registry handler hhandler hrefused => ?_, fun names hrefused => ?_⟩
      · rw [← hhandler] at hrefused hname
        simp [Registry.not_isName_of_register hrefused] at hname
      · simp [Settings.isName_of_checkNames hrefused] at hname
  · rintro rfl
    have hword := (Invocation.isWord_of_detect hdetect).2 c hc
    simp [(unreadable_iff.mp hunreadable).2] at hword
  · subst hhandler
    refine Registry.register_of_not_isName (Bool.eq_false_iff.mpr fun hname => ?_)
    have hchar := (isName_iff.mp hname).2 c hc
    simp [(unacceptable_iff.mp hunacceptable).1] at hchar

/-- A name with letters and digits of several scripts and a low line. -/
theorem isName_iff_detect_scripts :
    let name : Text := "größe_Ⅳ_٣".toList
    let handler : Handler :=
      { name, help := { short := [], long := [], sample := [] }, script := fun _ _ => .remove }
    let registry : Registry := { allowed := [name], handlers := Dict.empty.insert name handler }
    (∀ c ∈ name, ¬ Unreadable c ∧ ¬ Unacceptable c) ∧ isName name = true ∧
      Invocation.detect (bracketed name) = some ⟨name, none⟩ ∧
      registry.dispatched? (bracketed name) = some (⟨name, none⟩, handler) := by
  intro name handler registry
  have hall : (name.all fun c => ¬ Unreadable c ∧ ¬ Unacceptable c) = true := by decide +kernel
  have hagree : ∀ c ∈ name, ¬ Unreadable c ∧ ¬ Unacceptable c := fun c hc =>
    of_decide_eq_true (List.all_eq_true.mp hall c hc)
  have hname : isName name = true := by decide +kernel
  have hregister : Registry.register { allowed := [name] } handler = (.ok (), registry) := by
    rw [Registry.register, show isName handler.name = true from hname]
    rfl
  obtain ⟨hdetect, hdispatched, -⟩ := (isName_iff_detect name).1 hagree
  refine ⟨hagree, hname, hdetect.mp hname, ?_⟩
  exact hdispatched { allowed := [name] } registry handler rfl hregister (by decide +kernel)

/-- A superscript digit may name a handler and is not read in a directive; the undertie is read in a
directive and may not name a handler. -/
theorem isName_superscript_undertie :
    ¬ (isName ['²'] = true ↔ Invocation.detect (bracketed ['²']) = some ⟨['²'], none⟩) ∧
      ¬ (isName ['‿'] = true ↔ Invocation.detect (bracketed ['‿']) = some ⟨['‿'], none⟩) := by
  decide +kernel

end WikiDirectives
