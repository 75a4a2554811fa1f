import Mathlib.Data.List.Infix
import WikiDirectives.Proofs.Inlining

/-! Contents put back into a whole text. Tokens do not run across the end of a line, so that a page can
be resolved line by line or at once after its lines are joined. -/
namespace WikiDirectives

namespace Stash

variable {stash : Stash} {s t digits rest : Text} {c : Char}

/-- Induction on how a text begins: with a token, or with a character that begins none. -/
@[elab_as_elim]
theorem token_induction {motive : Text → Prop} (nil : motive [])
    (token : ∀ digits rest, IsDigits digits → motive rest → motive (tokenOf digits ++ rest))
    (other : ∀ c s, tokenAt? (c :: s) = none → motive s → motive (c :: s)) (s : Text) : motive s := by
  induction s using substitute.induct with
  | case1 => exact nil
  | case2 c s digits rest hat ih =>
    obtain ⟨htext, hdigits⟩ := tokenAt?_eq_some_iff.mp hat
    rw [htext]
    exact token digits rest hdigits ih
  | case3 c s hat ih => exact other c s hat ih

/-! ## Texts without tokens of the stash -/

/-- A token stands in a text just if it is found at the start of what follows some place. -/
lemma tokenOf_infix_iff : IsDigits digits ∧ tokenOf digits <:+: s ↔
    ∃ u ∈ s.tails, ∃ rest, tokenAt? u = some (digits, rest) := by
  constructor
  · rintro ⟨hdigits, front, back, rfl⟩
    exact ⟨tokenOf digits ++ back, by simp, back, tokenAt?_eq_some_iff.mpr ⟨rfl, hdigits⟩⟩
  · rintro ⟨u, hu, rest, hat⟩
    obtain ⟨rfl, hdigits⟩ := tokenAt?_eq_some_iff.mp hat
    obtain ⟨front, rfl⟩ := (List.mem_tails _ _).mp hu
    exact ⟨hdigits, front, rest, by simp⟩

/-- The text holds a token of a content in the stash, by whatever digits. -/
def Mentions (stash : Stash) (s : Text) : Prop :=
  ∃ digits, IsDigits digits ∧ tokenOf digits <:+: s ∧ (stash.atNumeral? digits).isSome = true

lemma Mentions.mono (h : stash.Mentions s) (hpart : s <:+: t) : stash.Mentions t := by
  obtain ⟨digits, hdigits, htoken, hsome⟩ := h
  exact ⟨digits, hdigits, htoken.trans hpart, hsome⟩

lemma mentions_iff_tails : stash.Mentions s ↔ ∃ u ∈ s.tails, ∃ found ∈ tokenAt? u,
    (stash.atNumeral? found.1).isSome = true := by
  constructor
  · rintro ⟨digits, hdigits, htoken, hsome⟩
    obtain ⟨u, hu, rest, hat⟩ := tokenOf_infix_iff.mp ⟨hdigits, htoken⟩
    exact ⟨u, hu, (digits, rest), hat, hsome⟩
  · rintro ⟨u, hu, ⟨digits, rest⟩, hat, hsome⟩
    obtain ⟨hdigits, htoken⟩ := tokenOf_infix_iff.mpr ⟨u, hu, rest, hat⟩
    exact ⟨digits, hdigits, htoken, hsome⟩

instance (stash : Stash) (s : Text) : Decidable (stash.Mentions s) :=
  decidable_of_iff _ mentions_iff_tails.symm

theorem substitute_eq_self_of_not_mentions (h : ¬ stash.Mentions s) : stash.substitute s = s := by
  induction s using token_induction with
  | nil => exact substitute_nil
  | token digits rest hdigits ih =>
    have hnone : stash.atNumeral? digits = none := by
      rw [← Option.not_isSome_iff_eq_none]
      exact fun hsome => h ⟨digits, hdigits, List.prefix_append _ _ |>.isInfix, hsome⟩
    rw [substitute_tokenOf hdigits, hnone, Option.getD_none,
      ih fun hrest => h (hrest.mono (List.suffix_append _ _).isInfix)]
  | other c s hat ih =>
    rw [substitute_cons hat, ih fun hs => h (hs.mono (List.infix_cons List.infix_rfl))]

lemma not_mentions_of_isEmpty (h : stash.entries.isEmpty = true) (s : Text) : ¬ stash.Mentions s := by
  rintro ⟨digits, -, -, hsome⟩
  unfold atNumeral? at hsome
  split at hsome
  · simp [List.isEmpty_iff.mp h] at hsome
  · simp at hsome

/-- Without contents nothing is substituted, so that an empty stash is no special case. -/
theorem resolveAll_eq_substitute (stash : Stash) (s : Text) : stash.resolveAll s = stash.substitute s := by
  unfold resolveAll
  split_ifs with hempty
  · rw [substitute_eq_self_of_not_mentions (not_mentions_of_isEmpty hempty s)]
  · rfl

lemma resolveAll_eq_self_of_not_mentions (h : ¬ stash.Mentions s) : stash.resolveAll s = s := by
  rw [resolveAll_eq_substitute, substitute_eq_self_of_not_mentions h]

/-! ## Texts put together -/

/-- A text with the form of a token begins in one text and ends in the next. -/
def Straddles (s t : Text) : Prop :=
  ∃ digits front back, IsDigits digits ∧ front ≠ [] ∧ back ≠ [] ∧ front ++ back = tokenOf digits ∧
    front <:+ s ∧ back <+: t

lemma Straddles.of_suffix (h : Straddles s t) {u : Text} (hsuffix : s <:+ u) : Straddles u t := by
  obtain ⟨digits, front, back, hdigits, hfront, hback, htoken, hs, ht⟩ := h
  exact ⟨digits, front, back, hdigits, hfront, hback, htoken, hs.trans hsuffix, ht⟩

/-- A token at the start of two texts ends in the first of them if none begins there and ends in the
second. -/
lemma exists_of_tokenOf_append (h : ¬ Straddles s t) (hs : s ≠ []) (hdigits : IsDigits digits)
    (htext : s ++ t = tokenOf digits ++ rest) : ∃ u, s = tokenOf digits ++ u ∧ rest = u ++ t := by
  rcases List.append_eq_append_iff.mp htext with ⟨back, hback, ht⟩ | ⟨u, hu, hrest⟩
  · cases back with
    | nil => exact ⟨[], by simpa using hback.symm, by simpa using ht.symm⟩
    | cons c back =>
      refine absurd ⟨digits, s, c :: back, hdigits, hs, by simp, hback.symm, List.suffix_rfl, ?_⟩ h
      exact ht ▸ List.prefix_append _ _
  · exact ⟨u, hu, hrest⟩

/-- Two texts are substituted one by one if no token runs from one into the other. -/
theorem substitute_append (h : ¬ Straddles s t) :
    stash.substitute (s ++ t) = stash.substitute s ++ stash.substitute t := by
  induction s using token_induction with
  | nil => rw [substitute_nil, List.nil_append, List.nil_append]
  | token digits rest hdigits ih =>
    have hrest : ¬ Straddles rest t := fun hrest => h (hrest.of_suffix (List.suffix_append _ _))
    rw [List.append_assoc, substitute_tokenOf hdigits, substitute_tokenOf hdigits, ih hrest,
      List.append_assoc]
  | other c s hat ih =>
    have hs : ¬ Straddles s t := fun hs => h (hs.of_suffix (List.suffix_cons c s))
    have hboth : tokenAt? (c :: (s ++ t)) = none := by
      -- A token that is found with the second text behind was there without it.
      rw [Option.eq_none_iff_forall_ne_some]
      rintro ⟨digits, rest⟩ hsome
      obtain ⟨htext, hdigits⟩ := tokenAt?_eq_some_iff.mp hsome
      obtain ⟨u, hu, -⟩ := exists_of_tokenOf_append h (List.cons_ne_nil c s) hdigits htext
      have hfound := tokenAt?_eq_some_iff.mpr ⟨hu, hdigits⟩
      simp [hat] at hfound
    rw [List.cons_append, substitute_cons hboth, substitute_cons hat, ih hs, List.cons_append]

/-! ## Line endings -/

/-- A character that no token has. -/
def Foreign (c : Char) : Prop := ∀ digits, IsDigits digits → c ∉ tokenOf digits

lemma foreign_of {c : Char} (hopening : c ∉ tokenOpening) (hdecimal : isDecimal c = false)
    (hclosing : c ≠ tokenClosing) : Foreign c := by
  intro digits hdigits hmem
  simp only [tokenOf, List.mem_append, List.mem_singleton] at hmem
  rcases hmem with (hmem | hmem) | hmem
  · exact hopening hmem
  · simp [hdigits.2 c hmem] at hdecimal
  · exact hclosing hmem

lemma foreign_of_mem_ending {ending : LineEnding} (h : c ∈ ending.text) : Foreign c := by
  have hcases : c = '\r' ∨ c = '\n' := by
    cases ending with
    | lf => exact .inr (by simpa [LineEnding.text] using h)
    | crlf => simpa [LineEnding.text] using h
  rcases hcases with rfl | rfl <;> exact foreign_of (by decide) rfl (by decide)

lemma not_straddles_cons (h : Foreign c) (s t : Text) : ¬ Straddles s (c :: t) := by
  rintro ⟨digits, front, back, hdigits, -, hback, htoken, -, ht⟩
  obtain ⟨first, back, rfl⟩ := List.exists_cons_of_ne_nil hback
  obtain rfl : first = c := (List.cons_prefix_cons.mp ht).1
  exact h digits hdigits (htoken ▸ by simp)

lemma substitute_foreign (h : ∀ c ∈ s, Foreign c) (t : Text) :
    stash.substitute (s ++ t) = s ++ stash.substitute t := by
  induction s with
  | nil => rfl
  | cons c s ih =>
    have hnone : tokenAt? (c :: (s ++ t)) = none := by
      rw [Option.eq_none_iff_forall_ne_some]
      rintro ⟨digits, rest⟩ hsome
      obtain ⟨htext, hdigits⟩ := tokenAt?_eq_some_iff.mp hsome
      obtain ⟨first, body, hbody⟩ := List.exists_cons_of_ne_nil (tokenOf_ne_nil digits)
      obtain rfl : c = first := by
        rw [hbody, List.cons_append] at htext
        exact (List.cons.inj htext).1
      exact h c List.mem_cons_self digits hdigits (hbody ▸ List.mem_cons_self)
    rw [List.cons_append, substitute_cons hnone,
      ih fun other hother => h other (List.mem_cons_of_mem _ hother), List.cons_append]

/-- Texts with a separator that no token has a character of are substituted one by one. -/
theorem substitute_joined {separator : Text} (hne : separator ≠ []) (h : ∀ c ∈ separator, Foreign c)
    (texts : List Text) :
    stash.substitute (Text.joined separator texts) =
      Text.joined separator (texts.map stash.substitute) := by
  induction texts with
  | nil => exact substitute_nil
  | cons text texts ih =>
    cases texts with
    | nil => rfl
    | cons next texts =>
      obtain ⟨c, rest, rfl⟩ := List.exists_cons_of_ne_nil hne
      have hstraddle := not_straddles_cons (h c List.mem_cons_self) text
        (rest ++ Text.joined (c :: rest) (next :: texts))
      rw [Text.joined, List.append_assoc, List.cons_append, substitute_append hstraddle,
        ← List.cons_append, substitute_foreign h, ih]
      simp [Text.joined]

end Stash

/-! ## Pages -/

lemma LineEnding.text_ne_nil (ending : LineEnding) : ending.text ≠ [] := by
  cases ending <;> simp [LineEnding.text]

namespace Page
variable {page : Page}

/-- Written with the endings of a page, lines are resolved one by one. -/
theorem resolveAll_assemble (page : Page) (stash : Stash) (lines : List Text) :
    stash.resolveAll (page.assemble lines) = page.assemble (lines.map stash.resolveAll) := by
  have hforeign : ∀ c ∈ page.ending.text, Stash.Foreign c := fun c hc =>
    Stash.foreign_of_mem_ending hc
  have hjoined : stash.substitute (Text.joined page.ending.text lines) = _ :=
    Stash.substitute_joined page.ending.text_ne_nil hforeign lines
  have hsubstitute : stash.resolveAll = stash.substitute := funext stash.resolveAll_eq_substitute
  rw [hsubstitute, assemble, assemble, List.isEmpty_map]
  by_cases htrailing : (page.trailing && !lines.isEmpty) = true
  · obtain ⟨c, rest, hending⟩ := List.exists_cons_of_ne_nil page.ending.text_ne_nil
    have hstraddle : ¬ Stash.Straddles (Text.joined page.ending.text lines) page.ending.text := by
      rw [hending]
      exact Stash.not_straddles_cons (hforeign c (hending ▸ List.mem_cons_self)) _ rest
    have hkept : stash.substitute page.ending.text = page.ending.text := by
      simpa [Stash.substitute_nil] using Stash.substitute_foreign hforeign []
    rw [if_pos htrailing, Stash.substitute_append hstraddle, hjoined, hkept]
  · rw [if_neg htrailing, List.append_nil, List.append_nil, hjoined]

end Page

/-- A page is rendered as if its text with all tokens were resolved at once, as long as no line of the
source mentions a content of the stash. Handlers may return any texts, also with parts of tokens and
with line ends, and may keep contents aside that hold tokens. -/
theorem render_eq_resolveAll_toText (registry : Registry) (document : Document) (text : Text)
    (page : Page) (final : Session) (h : registry.expandText document text = (.ok page, final))
    (hsource : ∀ (place : ℕ) (line : Text), page.lines[place]? = some line →
      page.generated[place]? = some false → ¬ page.stash.Mentions line) :
    page.render = page.stash.resolveAll page.toText := by
  obtain ⟨lines, -, hlines, hgenerated, -⟩ := Registry.expandText_ok h
  have hrendered : ∀ line ∈ lines, line.rendered page.stash = page.stash.resolveAll line.text := by
    intro line hmem
    obtain ⟨place, hplace⟩ := List.mem_iff_getElem?.mp hmem
    unfold Line.rendered
    cases hmark : line.generated with
    | true => rfl
    | false =>
      have hkept := hsource place line.text (by simp [hlines, hplace])
        (by simp [hgenerated, hplace, hmark])
      exact (Stash.resolveAll_eq_self_of_not_mentions hkept).symm
  rw [Page.render_eq hlines hgenerated, Page.toText, Page.resolveAll_assemble, hlines, List.map_map,
    List.map_congr_left hrendered]
  rfl

/-- A registry with a handler that keeps a text with the form of a token aside, and returns two lines:
the token of that text, and the first half of it. -/
def Registry.halves : Registry where
  allowed := ["half".toList]
  handlers := Dict.empty.insert "half".toList
    { name := "half".toList
      help := { short := [], long := [], sample := [] }
      script := fun _ _ => .put (Stash.token 0) fun token =>
        .line (token ++ '\n' :: Stash.tokenOpening) }

/-- The next line of the source goes on like the second half of the token, and holds a token that
belongs to no content. -/
theorem render_eq_resolveAll_toText_halves :
    let text : Text := "[half]\n0\x03\x02wmstash:7\x03\n".toList
    let source : Text := "0\x03\x02wmstash:7\x03".toList
    let page : Page :=
      { lines := [Stash.token 0 ++ '\n' :: Stash.tokenOpening, source]
        stash := ⟨[Stash.token 0]⟩
        generated := [true, false]
        ending := .lf
        trailing := true }
    (∃ final, Registry.halves.expandText ⟨[], fun _ => []⟩ text = (.ok page, final)) ∧
      ¬ page.stash.Mentions source ∧ page.render = page.stash.resolveAll page.toText ∧
      page.toText = "\x02wmstash:0\x03\n\x02wmstash:\n0\x03\x02wmstash:7\x03\n".toList := by
  intro text source page
  have hexpand : Registry.halves.expandText ⟨[], fun _ => []⟩ text =
      (.ok page, { stash := ⟨[Stash.token 0]⟩, events := [.dispatched 1 "half".toList 0] }) := rfl
  have hsource : ¬ page.stash.Mentions source := by decide
  refine ⟨⟨_, hexpand⟩, hsource, ?_, by decide +kernel⟩
  refine render_eq_resolveAll_toText _ _ _ page _ hexpand fun place line hline hmark => ?_
  match place with
  | 0 => simp [page] at hmark
  | 1 =>
    obtain rfl : source = line := by simpa [page] using hline
    exact hsource
  | place + 2 => simp [page] at hline

end WikiDirectives
