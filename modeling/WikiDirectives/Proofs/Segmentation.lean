import WikiDirectives.Proofs.WrittenArguments

/-! The tokens of a fragment. A text falls in exactly one way into tokens and the gaps between them, and
its arguments are those of the tokens. -/
namespace WikiDirectives

namespace Fragment

/-! ## Quoted texts -/

/-- The inside of a closed quote, still escaped: characters other than quotes and backslashes, and
backslashes each with a character behind it that does not break the line. -/
inductive IsBody : Text → Prop
  | nil : IsBody []
  | plain {c : Char} {s : Text} (hquote : c ≠ '\x27') (hescape : c ≠ '\\') (hs : IsBody s) :
      IsBody (c :: s)
  | escape {c : Char} {s : Text} (hline : c ≠ '\n') (hs : IsBody s) : IsBody ('\\' :: c :: s)

/-- Behind an opening quote, a quote closes it. -/
def Closes (s : Text) : Prop := ∃ body rest, IsBody body ∧ s = body ++ '\x27' :: rest

variable {s body written rest : Text} {result : ArgValue}

lemma quoted?_body (h : IsBody body) (rest : Text) :
    quoted? (body ++ '\x27' :: rest) = some (body, rest) := by
  induction h with
  | nil => rfl
  | plain hquote hescape _ ih => rw [List.cons_append, quoted?_cons hquote hescape, ih, Option.map_some]
  | escape hline _ ih => simp [quoted?, hline, ih]

theorem quoted?_eq_some_iff :
    quoted? s = some (body, rest) ↔ IsBody body ∧ s = body ++ '\x27' :: rest := by
  constructor
  · intro h
    fun_induction quoted? s generalizing body with
    | case1 => simp at h
    | case2 s =>
      obtain ⟨rfl, rfl⟩ : [] = body ∧ s = rest := by simpa using h
      exact ⟨.nil, rfl⟩
    | case3 => simp at h
    | case4 c s hline ih =>
      obtain ⟨⟨body, rest⟩, hs, heq⟩ := Option.map_eq_some_iff.mp h
      obtain ⟨rfl, rfl⟩ := Prod.mk.inj heq
      obtain ⟨hbody, rfl⟩ := ih hs
      exact ⟨.escape hline hbody, rfl⟩
    | case5 => simp at h
    | case6 c s hquote hpair hlast ih =>
      have hescape : c ≠ '\\' := by
        intro hc
        cases s with
        | nil => exact hlast hc rfl
        | cons d s => exact hpair d s hc rfl
      obtain ⟨⟨body, rest⟩, hs, heq⟩ := Option.map_eq_some_iff.mp h
      obtain ⟨rfl, rfl⟩ := Prod.mk.inj heq
      obtain ⟨hbody, rfl⟩ := ih hs
      exact ⟨.plain hquote hescape hbody, rfl⟩
  · rintro ⟨hbody, rfl⟩
    exact quoted?_body hbody rest

lemma quoted?_eq_none_iff : quoted? s = none ↔ ¬ Closes s := by
  rw [Option.eq_none_iff_forall_ne_some]
  constructor
  · rintro h ⟨body, rest, hbody⟩
    exact h (body, rest) (quoted?_eq_some_iff.mpr hbody)
  · rintro h ⟨body, rest⟩ hsome
    exact h ⟨body, rest, quoted?_eq_some_iff.mp hsome⟩

/-! ## Values -/

/-- How a value is written behind a name when `rest` follows it. A flag has nothing, and no colon may
follow. Behind a colon stands a quoted text; or, if the quote is not closed, the quote with the rest of
its line; or, if there is no quote, the longest run of characters other than blanks. -/
inductive Spells (rest : Text) : ArgValue → Text → Prop
  | flag (hcolon : rest.head? ≠ some ':') : Spells rest .flag []
  | quoted {body : Text} (hbody : IsBody body) :
      Spells rest (.text (unescape body)) (':' :: '\x27' :: body ++ ['\x27'])
  | unclosed {line : Text} (hopen : ¬ Closes (line ++ rest)) (hline : '\n' ∉ line)
      (hrest : Text.Stops (· != '\n') rest) :
      Spells rest (.text ('\x27' :: line)) (':' :: '\x27' :: line)
  | bare {run : Text} (hquote : (run ++ rest).head? ≠ some '\x27')
      (hrun : ∀ c ∈ run, isBlank c = false) (hrest : Text.Stops (!isBlank ·) rest) :
      Spells rest (.text run) (':' :: run)

lemma value_colon (h : s.head? ≠ some '\x27') :
    value (':' :: s) = (.text (s.takeWhile (!isBlank ·)), s.dropWhile (!isBlank ·)) := by
  cases s with
  | nil => rfl
  | cons c s =>
    have hc : c ≠ '\x27' := by simpa using h
    simp [value, hc]

theorem Spells.value_eq (h : Spells rest result written) : value (written ++ rest) = (result, rest) := by
  cases h with
  | flag hcolon => exact value_eq_flag hcolon
  | @quoted body hbody =>
    have hquoted := quoted?_body hbody rest
    simp [value, hquoted]
  | @unclosed line hopen hline hrest =>
    have hnone := quoted?_eq_none_iff.mpr hopen
    have hrun : ∀ c ∈ line, (c != '\n') = true := fun c hc => by
      simpa using ne_of_mem_of_not_mem hc hline
    simp only [List.cons_append, value, hnone]
    rw [Text.takeWhile_run hrun hrest, Text.dropWhile_run hrun hrest]
  | @bare run hquote hrun hrest =>
    have hrun' : ∀ c ∈ run, (!isBlank c) = true := fun c hc => by simp [hrun c hc]
    rw [List.cons_append, value_colon hquote, Text.takeWhile_run hrun' hrest,
      Text.dropWhile_run hrun' hrest]

theorem exists_spells (s : Text) :
    ∃ written, s = written ++ (value s).2 ∧ Spells (value s).2 (value s).1 written := by
  fun_cases value s with
  | case1 s body rest hquoted =>
    obtain ⟨hbody, rfl⟩ := quoted?_eq_some_iff.mp hquoted
    exact ⟨_, by simp, .quoted hbody⟩
  | case2 s hnone =>
    have hsplit : s.takeWhile (· != '\n') ++ s.dropWhile (· != '\n') = s :=
      List.takeWhile_append_dropWhile
    refine ⟨':' :: '\x27' :: s.takeWhile (· != '\n'), by simp [hsplit], .unclosed ?_ ?_ ?_⟩
    · rw [hsplit]
      exact quoted?_eq_none_iff.mp hnone
    · intro hmem
      simpa using List.mem_takeWhile_imp hmem
    · exact Text.stops_dropWhile _ s
  | case3 s hquote =>
    have hsplit : s.takeWhile (!isBlank ·) ++ s.dropWhile (!isBlank ·) = s :=
      List.takeWhile_append_dropWhile
    refine ⟨':' :: s.takeWhile (!isBlank ·), by simp [hsplit], .bare ?_ ?_ ?_⟩
    · rw [hsplit]
      intro hhead
      obtain ⟨tail, rfl⟩ := List.head?_eq_some_iff.mp hhead
      exact hquote tail rfl
    · intro c hc
      simpa using List.mem_takeWhile_imp hc
    · exact Text.stops_dropWhile _ s
  | case4 s hquote hcolon =>
    refine ⟨[], rfl, .flag fun hhead => ?_⟩
    obtain ⟨tail, rfl⟩ := List.head?_eq_some_iff.mp hhead
    exact hcolon tail rfl

/-- A word goes on with the next only across a closing quote. -/
theorem Spells.separates (h : Spells rest result written) (hend : Text.Stops isWord (written ++ rest)) :
    written.getLast? = some '\x27' ∨ Text.Stops isWord rest := by
  cases h with
  | flag _ => exact .inr hend
  | quoted _ => exact .inl List.getLast?_concat
  | unclosed _ _ hrest =>
    right
    intro c hc
    obtain rfl : c = '\n' := by simpa using hrest c hc
    exact isWord_newline
  | bare _ _ hrest =>
    right
    intro c hc
    exact isWord_eq_false_of_isBlank (by simpa using hrest c hc)

/-! ## Segments -/

/-- A token as it is written: the gap before it, its name, what stands behind the name, and the value
that this gives. -/
@[ext] structure Segment where
  gap : Text
  name : Text
  written : Text
  value : ArgValue

namespace Segment

def text (segment : Segment) : Text := segment.gap ++ (segment.name ++ segment.written)

/-- Between two texts, the name is a word that cannot be made longer on either side, no other word
stands in the gap, and the value is written as it must be. -/
structure Fits (before : Text) (segment : Segment) (rest : Text) : Prop where
  gap : ∀ c ∈ segment.gap, isWord c = false
  name : segment.name.IsWord
  starts : ∀ c ∈ (before ++ segment.gap).getLast?, isWord c = false
  ends : Text.Stops isWord (segment.written ++ rest)
  spells : Spells rest segment.value segment.written

variable {before before' rest rest' : Text} {segment segment' : Segment}

lemma Fits.stops (h : segment.Fits before rest) :
    Text.Stops (!isWord ·) (segment.name ++ (segment.written ++ rest)) := by
  obtain ⟨c, word, hname⟩ := List.exists_cons_of_ne_nil h.name.1
  rw [hname, List.cons_append, Text.stops_cons, h.name.2 c (by simp [hname])]
  rfl

/-- A text begins with a token in one way only. -/
theorem Fits.unique (h : segment.Fits before rest) (h' : segment'.Fits before' rest')
    (htext : segment.text ++ rest = segment'.text ++ rest') : segment = segment' ∧ rest = rest' := by
  simp only [text, List.append_assoc] at htext
  have hgap : ∀ c ∈ segment.gap, (!isWord c) = true := fun c hc => by simp [h.gap c hc]
  have hgap' : ∀ c ∈ segment'.gap, (!isWord c) = true := fun c hc => by simp [h'.gap c hc]
  obtain ⟨hgaps, hnames⟩ := Text.run_unique hgap hgap' h.stops h'.stops htext
  obtain ⟨hnames, hvalues⟩ := Text.run_unique h.name.2 h'.name.2 h.ends h'.ends hnames
  have hvalue := h.spells.value_eq
  rw [hvalues, h'.spells.value_eq] at hvalue
  obtain ⟨hvalue, hrest⟩ := Prod.mk.inj hvalue
  rw [hrest] at hvalues
  exact ⟨Segment.ext hgaps hnames (List.append_cancel_right hvalues) hvalue.symm, hrest.symm⟩

end Segment

/-- Segments written one after the other, with a gap behind them. -/
def spelled : List Segment → Text → Text
  | [], gap => gap
  | segment :: segments, gap => segment.text ++ spelled segments gap

/-- Behind a text, each segment fits between what stands before it and what follows, and the last gap
holds no word. -/
def FitAll : Text → List Segment → Text → Prop
  | _, [], gap => ∀ c ∈ gap, isWord c = false
  | before, segment :: segments, gap =>
    segment.Fits before (spelled segments gap) ∧ FitAll (before ++ segment.text) segments gap

variable {before before' gap gap' : Text} {segments segments' : List Segment}

lemma spelled_ne_gap {segment : Segment} (hname : segment.name.IsWord)
    (hgap : ∀ c ∈ gap, isWord c = false) (segments : List Segment) (gap' : Text) :
    spelled (segment :: segments) gap' ≠ gap := by
  rintro rfl
  obtain ⟨c, word, hcons⟩ := List.exists_cons_of_ne_nil hname.1
  have hc := hgap c (by simp [spelled, Segment.text, hcons])
  simp [hname.2 c (by simp [hcons])] at hc

theorem FitAll.unique (h : FitAll before segments gap) (h' : FitAll before' segments' gap')
    (htext : spelled segments gap = spelled segments' gap') : segments = segments' ∧ gap = gap' := by
  induction segments generalizing before before' segments' with
  | nil =>
    cases segments' with
    | nil => exact ⟨rfl, htext⟩
    | cons segment' segments' => exact absurd htext.symm (spelled_ne_gap h'.1.name h _ _)
  | cons segment segments ih =>
    cases segments' with
    | nil => exact absurd htext (spelled_ne_gap h.1.name h' _ _)
    | cons segment' segments' =>
      obtain ⟨rfl, hrest⟩ := h.1.unique h'.1 htext
      obtain ⟨rfl, rfl⟩ := ih h.2 h'.2 hrest
      exact ⟨rfl, rfl⟩

lemma tokens_gap (h : ∀ c ∈ gap, isWord c = false) : tokens gap = [] := by
  have hdrop : gap.dropWhile (!isWord ·) = [] := by
    rw [List.dropWhile_eq_nil_iff]
    intro c hc
    simp [h c hc]
  rw [tokens]
  split
  · rfl
  · next hcons => simp [hdrop] at hcons

/-- What is read from segments in their order. -/
def entries (segments : List Segment) : List (Text × ArgValue) :=
  segments.map fun segment => (segment.name, segment.value)

theorem FitAll.tokens_eq (h : FitAll before segments gap) :
    tokens (spelled segments gap) = entries segments := by
  induction segments generalizing before with
  | nil => exact tokens_gap h
  | cons segment segments ih =>
    obtain ⟨hfits, hrest⟩ := h
    rw [spelled, Segment.text, List.append_assoc, List.append_assoc,
      tokens_word hfits.gap hfits.name hfits.ends, hfits.spells.value_eq, ih hrest]
    rfl

/-! ## The segmentation of a text -/

/-- Induction on how a fragment begins: with a gap and a word, behind whose value the rest follows, or
with a gap to its end. -/
@[elab_as_elim]
theorem word_induction {motive : Text → Prop}
    (gap : ∀ gap, (∀ c ∈ gap, isWord c = false) → motive gap)
    (word : ∀ gap name rest, (∀ c ∈ gap, isWord c = false) → Text.IsWord name →
      Text.Stops isWord rest → motive (value rest).2 → motive (gap ++ (name ++ rest)))
    (s : Text) : motive s := by
  induction s using tokens.induct with
  | case1 s hdrop =>
    apply gap
    intro c hc
    simpa using List.dropWhile_eq_nil_iff.mp hdrop c hc
  | case2 s c rest hdrop found ih =>
    have hc : isWord c = true := by
      have hstop := Text.stops_dropWhile (!isWord ·) s
      rw [hdrop] at hstop
      simpa using Text.stops_cons.mp hstop
    have hs : s = s.takeWhile (!isWord ·) ++
        ((c :: rest).takeWhile isWord ++ (c :: rest).dropWhile isWord) := by
      rw [List.takeWhile_append_dropWhile, ← hdrop, List.takeWhile_append_dropWhile]
    rw [hs]
    apply word
    · intro d hd
      simpa using List.mem_takeWhile_imp hd
    · exact ⟨by simp [hc], fun d hd => List.mem_takeWhile_imp hd⟩
    · exact Text.stops_dropWhile isWord (c :: rest)
    · rw [List.dropWhile_cons_of_pos hc]
      exact ih

lemma isWord_quote : isWord '\x27' = false := rfl

/-- The word behind a gap is not the end of a longer one. -/
lemma starts_of {name : Text} (hgap : ∀ c ∈ gap, isWord c = false) (hname : name.IsWord)
    (h : (∀ c ∈ before.getLast?, isWord c = false) ∨ Text.Stops isWord (gap ++ (name ++ rest))) :
    ∀ c ∈ (before ++ gap).getLast?, isWord c = false := by
  intro c hc
  rcases List.eq_nil_or_concat gap with rfl | ⟨front, last, rfl⟩
  · rw [List.append_nil] at hc
    rcases h with h | h
    · exact h c hc
    · obtain ⟨first, word, rfl⟩ := List.exists_cons_of_ne_nil hname.1
      have hfirst := Text.stops_cons.mp h
      simp [hname.2 first] at hfirst
  · obtain rfl : last = c := by simpa [← List.append_assoc] using hc
    exact hgap last (by simp)

theorem exists_segments (s before : Text)
    (h : (∀ c ∈ before.getLast?, isWord c = false) ∨ Text.Stops isWord s) :
    ∃ segments gap, spelled segments gap = s ∧ FitAll before segments gap := by
  induction s using word_induction generalizing before with
  | gap gap hgap => exact ⟨[], gap, rfl, hgap⟩
  | word gap name rest hgap hname hrest ih =>
    obtain ⟨written, hwritten, hspells⟩ := exists_spells rest
    have hends : Text.Stops isWord (written ++ (value rest).2) := hwritten ▸ hrest
    let segment : Segment := ⟨gap, name, written, (value rest).1⟩
    -- Behind the value no word goes on that began before it, so the rest can be taken by itself.
    have hbehind : (∀ c ∈ (before ++ segment.text).getLast?, isWord c = false) ∨
        Text.Stops isWord (value rest).2 := by
      refine (hspells.separates hends).imp_left fun hquote c hc => ?_
      obtain rfl : '\x27' = c := by simpa [segment, Segment.text, hquote] using hc
      exact isWord_quote
    obtain ⟨segments, last, htext, hfit⟩ := ih (before ++ segment.text) hbehind
    refine ⟨segment :: segments, last, ?_, ⟨?_, hfit⟩⟩
    · rw [spelled, htext, Segment.text, List.append_assoc, List.append_assoc, ← hwritten]
    · rw [htext]
      exact ⟨hgap, hname, starts_of hgap hname h, hends, hspells⟩

/-- A text taken apart into tokens and gaps. -/
@[ext] structure Segmentation where
  segments : List Segment
  gap : Text
  fit : FitAll [] segments gap

def Segmentation.text (segmentation : Segmentation) : Text :=
  spelled segmentation.segments segmentation.gap

/-- Every text has exactly one segmentation, and its arguments are those of the tokens there, the last
value under a name counting. -/
theorem arguments_segmentation :
    (∀ raw, ∃! segmentation : Segmentation, segmentation.text = raw) ∧
      ∀ (segmentation : Segmentation) (name : Text),
        (arguments segmentation.text).get? name =
          Dict.lastValue? (entries segmentation.segments) name := by
  constructor
  · intro raw
    obtain ⟨segments, gap, htext, hfit⟩ := exists_segments raw [] (.inl (by simp))
    refine ⟨⟨segments, gap, hfit⟩, htext, fun other hother => ?_⟩
    obtain ⟨hsegments, hgap⟩ := other.fit.unique hfit (hother.trans htext.symm)
    exact Segmentation.ext hsegments hgap
  · intro segmentation name
    rw [arguments, Segmentation.text, segmentation.fit.tokens_eq, Dict.get?_ofList]

example : tokens "a:'x\\''b:!\tc:'y\n-d:".toList =
    [("a".toList, .text "x'".toList), ("b".toList, .text "!".toList),
      ("c".toList, .text "'y".toList), ("d".toList, .text [])] := by
  decide +kernel

end Fragment

end WikiDirectives
