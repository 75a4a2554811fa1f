import WikiDirectives.Proofs.Resolution

/-! Contents are put back in a single pass. A text falls in exactly one way into tokens and stretches
without tokens, and just the tokens of contents give way to their contents. -/
namespace WikiDirectives

namespace Stash

variable {stash : Stash} {s t digits digits' rest rest' : Text} {c : Char}

/-! ## Where tokens stand -/

instance (digits : Text) : Decidable (IsDigits digits) :=
  decidable_of_iff ((!digits.isEmpty && digits.all isDecimal) = true) (by simp [IsDigits])

lemma IsDigits.not_mem (h : IsDigits digits) (hc : isDecimal c = false) : c ∉ digits := by
  intro hmem
  simp [h.2 c hmem] at hc

/-- A token has its opening mark at its start and nowhere else. -/
lemma opening_not_mem_of_append {front back : Text} (hdigits : '\x02' ∉ digits) (hfront : front ≠ [])
    (h : front ++ back = tokenOf digits) : '\x02' ∉ back := by
  obtain ⟨first, front, rfl⟩ := List.exists_cons_of_ne_nil hfront
  have htail : front ++ back = "wmstash:".toList ++ digits ++ [tokenClosing] := (List.cons.inj h).2
  intro hmem
  have hmem : '\x02' ∈ "wmstash:".toList ++ digits ++ [tokenClosing] :=
    htail ▸ List.mem_append_right front hmem
  simp only [List.mem_append, List.mem_singleton] at hmem
  rcases hmem with (hmem | hmem) | hmem
  · exact absurd hmem (by decide)
  · exact hdigits hmem
  · exact absurd hmem (by decide)

lemma not_straddles_tokenOf (s digits rest : Text) : ¬ Straddles s (tokenOf digits ++ rest) := by
  rintro ⟨other, front, back, hother, hfront, hback, htoken, -, hstart⟩
  obtain ⟨first, back, rfl⟩ := List.exists_cons_of_ne_nil hback
  obtain rfl : first = '\x02' := (List.cons_prefix_cons.mp hstart).1
  exact opening_not_mem_of_append (hother.not_mem rfl) hfront htoken List.mem_cons_self

lemma tokenOf_append_inj (hdigits : IsDigits digits) (hdigits' : IsDigits digits')
    (h : tokenOf digits ++ rest = tokenOf digits' ++ rest') : digits = digits' ∧ rest = rest' := by
  have hat := tokenAt?_eq_some_iff.mpr ⟨h, hdigits'⟩
  rw [tokenAt?_eq_some_iff.mpr ⟨rfl, hdigits⟩] at hat
  exact Prod.mk.inj (Option.some.inj hat)

/-- Nothing in the text has the form of a token. -/
def TokenFree (s : Text) : Prop := ∀ digits, IsDigits digits → ¬ tokenOf digits <:+: s

lemma tokenFree_iff_tails : TokenFree s ↔ ∀ u ∈ s.tails, tokenAt? u = none := by
  constructor
  · intro h u hu
    rw [Option.eq_none_iff_forall_ne_some]
    rintro ⟨digits, rest⟩ hat
    obtain ⟨hdigits, htoken⟩ := tokenOf_infix_iff.mpr ⟨u, hu, rest, hat⟩
    exact h digits hdigits htoken
  · intro h digits hdigits htoken
    obtain ⟨u, hu, rest, hat⟩ := tokenOf_infix_iff.mp ⟨hdigits, htoken⟩
    simp [h u hu] at hat

instance (s : Text) : Decidable (TokenFree s) := decidable_of_iff _ tokenFree_iff_tails.symm

lemma tokenFree_nil : TokenFree [] := by decide

lemma tokenFree_cons (hat : tokenAt? (c :: s) = none) (h : TokenFree s) : TokenFree (c :: s) := by
  rw [tokenFree_iff_tails] at h ⊢
  intro u hu
  rw [List.tails, List.mem_cons] at hu
  rcases hu with rfl | hu
  · exact hat
  · exact h u hu

lemma TokenFree.ne_append (h : TokenFree s) (hdigits : IsDigits digits) (t rest : Text) :
    s ≠ t ++ (tokenOf digits ++ rest) := by
  rintro rfl
  exact h digits hdigits ⟨t, rest, by simp⟩

lemma TokenFree.not_mentions (h : TokenFree s) : ¬ stash.Mentions s := by
  rintro ⟨digits, hdigits, htoken, -⟩
  exact h digits hdigits htoken

/-! ## Look-ups -/

lemma resolveAll_tokenOf (h : IsDigits digits) :
    stash.resolveAll (tokenOf digits) = (stash.resolve? (tokenOf digits)).getD (tokenOf digits) := by
  have hsubstitute : stash.substitute (tokenOf digits ++ []) = _ := substitute_tokenOf h []
  rw [List.append_nil, substitute_nil, List.append_nil] at hsubstitute
  rw [resolveAll_eq_substitute, hsubstitute, resolve?_tokenOf]

/-- With a sign before its digits, a text has not the form of a token. -/
lemma tokenFree_signed {numeral : Text} (h : numeral.IsNumeral) :
    TokenFree (tokenOf ('+' :: numeral)) := by
  rintro digits hdigits ⟨front, back, htext⟩
  have hmark : '\x02' ∉ '+' :: numeral := by
    intro hmem
    rcases List.mem_cons.mp hmem with hmem | hmem
    · exact absurd hmem (by decide)
    · exact absurd (h.2 _ hmem) (by decide)
  rw [List.append_assoc] at htext
  cases front with
  | cons first front =>
    apply opening_not_mem_of_append hmark (List.cons_ne_nil first front) htext
    simp [tokenOf, tokenOpening]
  | nil =>
    rw [List.nil_append, tokenOf_append, tokenOf, List.append_assoc, List.append_cancel_left_eq] at htext
    obtain ⟨first, others, rfl⟩ := List.exists_cons_of_ne_nil hdigits.1
    obtain rfl : first = '+' := (List.cons.inj htext).1
    exact hdigits.not_mem rfl List.mem_cons_self

/-- A content that is looked up by a text also takes the place of that text, unless a sign stands in it:
then the text stays. And a text with the form of a token is replaced by what is looked up by it, or
stays if that is nothing. -/
theorem resolveAll_agrees_unless_signed (stash : Stash) (s : Text) :
    (∀ content, stash.resolve? s = some content →
      stash.resolveAll s = if '+' ∈ s then s else content) ∧
    ∀ digits, IsDigits digits → s = tokenOf digits →
      stash.resolveAll s = (stash.resolve? s).getD s := by
  have hform : ∀ digits, IsDigits digits → s = tokenOf digits →
      stash.resolveAll s = (stash.resolve? s).getD s := by
    rintro digits hdigits rfl
    exact resolveAll_tokenOf hdigits
  refine ⟨fun content hcontent => ?_, hform⟩
  obtain ⟨numeral, rfl, hnumeral⟩ := exists_of_resolve? hcontent
  obtain ⟨digits, hdigits, rfl | rfl, -⟩ := atNumeral?_eq_some_iff.mp hnumeral
  · have hdigits := isDigits_of_isNumeral hdigits
    have hsign : '+' ∉ tokenOf numeral := foreign_of (by decide) rfl (by decide) numeral hdigits
    rw [if_neg hsign, hform numeral hdigits rfl, hcontent, Option.getD_some]
  · have hsign : '+' ∈ tokenOf ('+' :: digits) := by simp [tokenOf]
    rw [if_pos hsign, resolveAll_eq_self_of_not_mentions (tokenFree_signed hdigits).not_mentions]

/-- Zeros before the digits do not matter, and digits of another script denote no place. -/
theorem resolveAll_agrees_unless_signed_zeros :
    let stash : Stash := ⟨["<hr>".toList]⟩
    stash.resolve? (tokenOf "000".toList) = some "<hr>".toList ∧
      stash.resolveAll (tokenOf "000".toList) = "<hr>".toList ∧
      IsDigits "\u0660".toList ∧
      stash.resolveAll (tokenOf "\u0660".toList) = tokenOf "\u0660".toList := by
  intro stash
  have hzeros : stash.resolve? (tokenOf "000".toList) = some "<hr>".toList := by decide
  have hdigits : IsDigits "\u0660".toList := by decide
  refine ⟨hzeros, ?_, hdigits, ?_⟩
  · exact (resolveAll_agrees_unless_signed stash _).1 _ hzeros
  · exact (resolveAll_agrees_unless_signed stash _).2 _ hdigits rfl

/-- A content is looked up by its token with a sign before the digits, which stays in a text. -/
theorem resolve_signed_token :
    let stash : Stash := ⟨["<hr>".toList]⟩
    stash.resolve? (tokenOf "+0".toList) = some "<hr>".toList ∧
      stash.resolveAll (tokenOf "+0".toList) = tokenOf "+0".toList ∧
      tokenOf "+0".toList ≠ "<hr>".toList := by
  intro stash
  refine ⟨by decide, ?_, by decide⟩
  exact resolveAll_eq_self_of_not_mentions (TokenFree.not_mentions (by decide))

/-! ## Alternations -/

/-- The content at the place that digits denote, if all are of the ten digits. -/
def contentOf? (stash : Stash) (digits : Text) : Option Text :=
  if digits.all Char.isDigit then stash.entries[digits.number]? else none

lemma atNumeral?_eq_contentOf? (hroom : stash.entries.length ≤ wordBound) (h : IsDigits digits) :
    stash.atNumeral? digits = stash.contentOf? digits := by
  ext content
  unfold contentOf?
  rw [atNumeral?_eq_some_iff]
  constructor
  · rintro ⟨numeral, hnumeral, rfl | rfl, -, hcontent⟩
    · rw [if_pos (List.all_eq_true.mpr hnumeral.2)]
      exact hcontent
    · exact absurd List.mem_cons_self (h.not_mem (c := '+') rfl)
  · intro hcontent
    split_ifs at hcontent with hall
    have hplace := (List.getElem?_eq_some_iff.mp hcontent).1
    exact ⟨digits, ⟨h.1, List.all_eq_true.mp hall⟩, .inl rfl, by omega, hcontent⟩

/-- Stretches of text, with something in place of the token behind each but the last. -/
def filled (shown : Text → Text) : List (Text × Text) → Text → Text
  | [], last => last
  | (stretch, digits) :: parts, last => stretch ++ (shown digits ++ filled shown parts last)

/-- No stretch holds a token, and each but the last has the digits of one behind it. -/
def Alternates (parts : List (Text × Text)) (last : Text) : Prop :=
  (∀ part ∈ parts, TokenFree part.1 ∧ IsDigits part.2) ∧ TokenFree last

instance (parts : List (Text × Text)) (last : Text) : Decidable (Alternates parts last) :=
  inferInstanceAs (Decidable (_ ∧ _))

variable {parts parts' : List (Text × Text)} {last last' : Text}

lemma alternates_cons_iff {part : Text × Text} : Alternates (part :: parts) last ↔
    (TokenFree part.1 ∧ IsDigits part.2) ∧ Alternates parts last := by
  simp only [Alternates, List.forall_mem_cons, and_assoc]

theorem Alternates.substitute_filled (h : Alternates parts last)
    (hroom : stash.entries.length ≤ wordBound) :
    stash.substitute (filled tokenOf parts last) =
      filled (fun digits => (stash.contentOf? digits).getD (tokenOf digits)) parts last := by
  induction parts with
  | nil => exact substitute_eq_self_of_not_mentions h.2.not_mentions
  | cons part parts ih =>
    obtain ⟨⟨hstretch, hdigits⟩, hparts⟩ := alternates_cons_iff.mp h
    rw [filled, substitute_append (not_straddles_tokenOf _ _ _), substitute_tokenOf hdigits,
      ih hparts, substitute_eq_self_of_not_mentions hstretch.not_mentions,
      atNumeral?_eq_contentOf? hroom hdigits]
    rfl

/-- Of two stretches that a token follows in one text, neither goes on behind the end of the other. -/
lemma eq_nil_of_tokenFree_append {between : Text} (hfree : TokenFree (s ++ between))
    (hdigits : IsDigits digits) (h : between ++ (tokenOf digits' ++ rest') = tokenOf digits ++ rest) :
    between = [] := by
  by_contra hne
  obtain ⟨u, rfl, -⟩ := exists_of_tokenOf_append (not_straddles_tokenOf _ _ _) hne hdigits h
  exact hfree.ne_append hdigits s u rfl

theorem stretch_unique (hs : TokenFree s) (ht : TokenFree t) (hdigits : IsDigits digits)
    (hdigits' : IsDigits digits')
    (h : s ++ (tokenOf digits ++ rest) = t ++ (tokenOf digits' ++ rest')) :
    s = t ∧ digits = digits' ∧ rest = rest' := by
  have hsame : s = t := by
    rcases List.append_eq_append_iff.mp h with ⟨between, rfl, hbetween⟩ | ⟨between, rfl, hbetween⟩
    · rw [eq_nil_of_tokenFree_append ht hdigits hbetween.symm, List.append_nil]
    · rw [eq_nil_of_tokenFree_append hs hdigits' hbetween.symm, List.append_nil]
  rw [hsame, List.append_cancel_left_eq] at h
  exact ⟨hsame, tokenOf_append_inj hdigits hdigits' h⟩

theorem Alternates.unique (h : Alternates parts last) (h' : Alternates parts' last')
    (htext : filled tokenOf parts last = filled tokenOf parts' last') :
    parts = parts' ∧ last = last' := by
  induction parts generalizing parts' with
  | nil =>
    cases parts' with
    | nil => exact ⟨rfl, htext⟩
    | cons part' parts' =>
      exact absurd htext (h.2.ne_append (alternates_cons_iff.mp h').1.2 _ _)
  | cons part parts ih =>
    obtain ⟨⟨hstretch, hdigits⟩, hparts⟩ := alternates_cons_iff.mp h
    cases parts' with
    | nil => exact absurd htext.symm (h'.2.ne_append hdigits _ _)
    | cons part' parts' =>
      obtain ⟨⟨hstretch', hdigits'⟩, hparts'⟩ := alternates_cons_iff.mp h'
      obtain ⟨hfirst, hsecond, hrest⟩ := stretch_unique hstretch hstretch' hdigits hdigits' htext
      obtain ⟨rfl, rfl⟩ := ih hparts hparts' hrest
      exact ⟨congrArg (· :: parts) (Prod.ext hfirst hsecond), rfl⟩

lemma tokenAt?_eq_none_of_append (h : tokenAt? (s ++ t) = none) : tokenAt? s = none := by
  rw [Option.eq_none_iff_forall_ne_some] at h ⊢
  rintro ⟨digits, rest⟩ hat
  obtain ⟨rfl, hdigits⟩ := tokenAt?_eq_some_iff.mp hat
  exact h (digits, rest ++ t) (tokenAt?_eq_some_iff.mpr ⟨List.append_assoc _ _ _, hdigits⟩)

theorem exists_alternates (s : Text) :
    ∃ parts last, filled tokenOf parts last = s ∧ Alternates parts last := by
  induction s using token_induction with
  | nil => exact ⟨[], [], rfl, by decide⟩
  | token digits rest hdigits ih =>
    obtain ⟨parts, last, rfl, h⟩ := ih
    exact ⟨([], digits) :: parts, last, rfl, alternates_cons_iff.mpr ⟨⟨tokenFree_nil, hdigits⟩, h⟩⟩
  | other c s hat ih =>
    obtain ⟨parts, last, rfl, h⟩ := ih
    -- A character that begins no token goes to the stretch behind it.
    cases parts with
    | nil => exact ⟨[], c :: last, rfl, ⟨by simp, tokenFree_cons hat h.2⟩⟩
    | cons part parts =>
      obtain ⟨⟨hstretch, hdigits⟩, hparts⟩ := alternates_cons_iff.mp h
      have hfirst := tokenAt?_eq_none_of_append (s := c :: part.1) hat
      refine ⟨(c :: part.1, part.2) :: parts, last, rfl, alternates_cons_iff.mpr ⟨⟨?_, hdigits⟩, hparts⟩⟩
      exact tokenFree_cons hfirst hstretch

/-- A text as tokens, by their digits, and stretches without tokens before, between and behind them. -/
@[ext] structure Alternation where
  parts : List (Text × Text)
  last : Text
  alternates : Alternates parts last

/-- The text with something in place of each token. -/
def Alternation.fill (alternation : Alternation) (shown : Text → Text) : Text :=
  filled shown alternation.parts alternation.last

/-- Resolving is a single pass. Every text is in exactly one way an alternation of stretches and tokens,
and is resolved to the same stretches with the contents, as they are, in place of the tokens whose
digits denote one; all other tokens stay. Only for this must a word be able to count the contents. So
two texts are resolved one by one if no token runs from one into the other, and an empty stash is
resolved like every other. -/
theorem resolveAll_single_pass (stash : Stash) :
    (∀ text, ∃! alternation : Alternation, alternation.fill tokenOf = text) ∧
      (stash.entries.length ≤ wordBound → ∀ alternation : Alternation,
        stash.resolveAll (alternation.fill tokenOf) =
          alternation.fill fun digits => (stash.contentOf? digits).getD (tokenOf digits)) ∧
      (∀ s t, ¬ Straddles s t →
        stash.resolveAll (s ++ t) = stash.resolveAll s ++ stash.resolveAll t) ∧
      ∀ text, stash.resolveAll text = stash.substitute text := by
  refine ⟨fun text => ?_, fun hroom alternation => ?_, fun s t h => ?_, stash.resolveAll_eq_substitute⟩
  · obtain ⟨parts, last, htext, h⟩ := exists_alternates text
    refine ⟨⟨parts, last, h⟩, htext, fun other hother => ?_⟩
    obtain ⟨hparts, hlast⟩ := other.alternates.unique h (hother.trans htext.symm)
    exact Alternation.ext hparts hlast
  · rw [resolveAll_eq_substitute]
    exact alternation.alternates.substitute_filled hroom
  · simp only [resolveAll_eq_substitute]
    exact substitute_append h

/-- The contents are the two halves of a token. Put back one behind the other they are not read again;
and a token with digits of another script stays, as does one beyond the contents and one without an
end. -/
theorem resolveAll_single_pass_halves :
    let stash : Stash := ⟨[tokenOpening, "1\x03".toList]⟩
    let front : Text := "\x02wmstash:0\x03\x02wmstash:01\x03 \x02wmstash:".toList
    let back : Text := "\x02wmstash:\u0660\x03\x02wmstash:2\x03".toList
    stash.entries.length ≤ wordBound ∧
      stash.resolveAll front = "\x02wmstash:1\x03 \x02wmstash:".toList ∧
      ¬ Straddles front back ∧ stash.resolveAll (front ++ back) = stash.resolveAll front ++ back := by
  intro stash front back
  have hroom : stash.entries.length ≤ wordBound := by decide
  obtain ⟨-, hfill, happend, -⟩ := resolveAll_single_pass stash
  have hstraddle : ¬ Straddles front back := not_straddles_tokenOf _ "\u0660".toList _
  refine ⟨hroom, ?_, hstraddle, ?_⟩
  · exact hfill hroom ⟨[([], "0".toList), ([], "01".toList)], " \x02wmstash:".toList, by decide⟩
  · rw [happend front back hstraddle]
    congr 1
    exact hfill hroom ⟨[([], "\u0660".toList), ([], "2".toList)], [], by decide⟩

end Stash

end WikiDirectives
