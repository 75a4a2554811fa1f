import WikiDirectives.Html
import WikiDirectives.Proofs.Characters

/-! Markup that is written by elements and read back: a text splits at its angle brackets into tags,
balanced tags make up elements, and the texts in them are those that were meant once the character
references are decoded. -/
namespace WikiDirectives

namespace Markup

/-! ## References -/

/-- A text with its five character references read. -/
def decode : Text → Text
  | [] => []
  | '&' :: 'a' :: 'm' :: 'p' :: ';' :: s => '&' :: decode s
  | '&' :: 'l' :: 't' :: ';' :: s => '<' :: decode s
  | '&' :: 'g' :: 't' :: ';' :: s => '>' :: decode s
  | '&' :: 'q' :: 'u' :: 'o' :: 't' :: ';' :: s => '"' :: decode s
  | '&' :: '#' :: '3' :: '9' :: ';' :: s => '\x27' :: decode s
  | c :: s => c :: decode s

lemma decode_cons {c : Char} (hc : c ≠ '&') (s : Text) : decode (c :: s) = c :: decode s := by
  rw [decode] <;> (intros; contradiction)

lemma decode_escapeChar (c : Char) (s : Text) : decode (Html.escapeChar c ++ s) = c :: decode s := by
  fun_cases Html.escapeChar c with
  | case6 _ hamp => exact decode_cons hamp s
  | _ => rfl

@[simp] theorem decode_escape (s : Text) : decode (Html.escape s) = s := by
  induction s with
  | nil => rfl
  | cons c s ih => rw [Html.escape, List.flatMap_cons, decode_escapeChar, ← Html.escape, ih]

/-- The characters that tags and attributes are delimited with. -/
def delimiters : List Char := ['<', '>', '"']

theorem not_mem_escape {c : Char} (hc : c ∈ delimiters) (s : Text) : c ∉ Html.escape s := by
  simp only [Html.escape, List.mem_flatMap, not_exists, not_and]
  intro d _ hmem
  simp only [delimiters, List.mem_cons, List.not_mem_nil, or_false] at hc
  revert hmem
  fun_cases Html.escapeChar d with
  | case6 => grind
  | _ => rcases hc with rfl | rfl | rfl <;> decide

/-- A text that is checked to have none of some characters. -/
lemma not_mem_of_all {s : Text} {c : Char} {chars : List Char} (h : s.all (· ∉ chars) = true)
    (hc : c ∈ chars) : c ∉ s :=
  fun hmem => of_decide_eq_true (List.all_eq_true.mp h c hmem) hc

/-! ## Tags -/

/-- A tag: what stands between its angle brackets, and the text up to the next tag. -/
structure Tag where
  inner : Text
  following : Text
  deriving DecidableEq, Repr

namespace Tag

def text (tag : Tag) : Text := '<' :: (tag.inner ++ '>' :: tag.following)

/-- No angle bracket stands in the tag but the two that it is written with. -/
structure Clean (tag : Tag) : Prop where
  inner : '<' ∉ tag.inner ∧ '>' ∉ tag.inner
  following : '<' ∉ tag.following ∧ '>' ∉ tag.following

/-- The tag whose opening bracket stands just before a piece without another one. -/
def ofPiece? (piece : Text) : Option Tag :=
  match Text.pieces '>' piece with
  | [inner, following] => some ⟨inner, following⟩
  | _ => none

end Tag

/-- The tags that a text splits into at its angle brackets. There are none if the brackets do not pair
or if something stands before the first tag. -/
def tags? (html : Text) : Option (List Tag) :=
  match Text.pieces '<' html with
  | [] :: pieces => pieces.mapM Tag.ofPiece?
  | _ => none

lemma Tag.Clean.ofPiece? {tag : Tag} (h : tag.Clean) :
    Tag.ofPiece? (tag.inner ++ '>' :: tag.following) = some tag := by
  rw [Tag.ofPiece?, Text.pieces_append h.inner.2, Text.pieces_of_not_mem h.following.2]

lemma Tag.Clean.piece {tag : Tag} (h : tag.Clean) : '<' ∉ tag.inner ++ '>' :: tag.following := by
  simp [h.inner.1, h.following.1]

/-- Each tag is one piece behind an opening bracket. -/
lemma pieces_flatMap_text {tags : List Tag} (h : ∀ tag ∈ tags, tag.Clean) :
    Text.pieces '<' (tags.flatMap Tag.text) =
      [] :: tags.map fun tag => tag.inner ++ '>' :: tag.following := by
  -- A piece ends at the next tag, so the piece before the tags has to be general.
  suffices hbefore : ∀ before : Text, '<' ∉ before →
      Text.pieces '<' (before ++ tags.flatMap Tag.text) =
        before :: tags.map fun tag => tag.inner ++ '>' :: tag.following from hbefore [] (by simp)
  induction tags with
  | nil =>
    intro before hbefore
    simpa using Text.pieces_of_not_mem hbefore
  | cons tag tags ih =>
    intro before hbefore
    have hpiece := ih (fun other hother => h other (List.mem_cons_of_mem _ hother))
      _ (h tag List.mem_cons_self).piece
    rw [List.flatMap_cons, Tag.text, List.cons_append, Text.pieces_append hbefore, hpiece,
      List.map_cons]

theorem tags?_flatMap_text {tags : List Tag} (h : ∀ tag ∈ tags, tag.Clean) :
    tags? (tags.flatMap Tag.text) = some tags := by
  rw [tags?, pieces_flatMap_text h]
  dsimp only
  induction tags with
  | nil => rfl
  | cons tag tags ih =>
    rw [List.map_cons, List.mapM_cons, (h tag List.mem_cons_self).ofPiece?,
      ih fun other hother => h other (List.mem_cons_of_mem _ hother)]
    rfl

/-! ## Elements -/

inductive ElementName where
  | nav
  | p
  | ul
  | li
  | a
  deriving DecidableEq, Repr

inductive AttributeName where
  | classes
  | depth
  | href
  deriving DecidableEq, Repr

namespace ElementName

def text : ElementName → Text
  | nav => "nav".toList
  | p => "p".toList
  | ul => "ul".toList
  | li => "li".toList
  | a => "a".toList

def ofText? (s : Text) : Option ElementName := [nav, p, ul, li, a].find? (·.text = s)

@[simp] lemma ofText?_text (name : ElementName) : ofText? name.text = some name := by
  cases name <;> rfl

lemma not_mem_text {c : Char} (hc : c ∈ ' ' :: '/' :: delimiters) (name : ElementName) :
    c ∉ name.text :=
  not_mem_of_all (by cases name <;> decide) hc

end ElementName

namespace AttributeName

/-- What stands before the quoted value of an attribute. -/
def key : AttributeName → Text
  | classes => " class=".toList
  | depth => " data-depth=".toList
  | href => " href=".toList

def ofKey? (s : Text) : Option AttributeName := [classes, depth, href].find? (·.key = s)

@[simp] lemma ofKey?_key (name : AttributeName) : ofKey? name.key = some name := by
  cases name <;> rfl

lemma not_mem_key {c : Char} (hc : c ∈ delimiters) (name : AttributeName) : c ∉ name.key :=
  not_mem_of_all (by cases name <;> decide) hc

end AttributeName

abbrev Attributes := List (AttributeName × Text)

namespace Attributes

def text (attributes : Attributes) : Text :=
  attributes.flatMap fun (name, value) => name.key ++ '"' :: (Html.escape value ++ ['"'])

/-- The attributes whose keys and values take turns between quotes. -/
def ofPieces? : List Text → Option Attributes
  | [[]] => some []
  | key :: value :: rest => do
    let name ← AttributeName.ofKey? key
    let others ← ofPieces? rest
    return (name, decode value) :: others
  | _ => none

lemma text_cons (name : AttributeName) (value : Text) (attributes : Attributes) :
    text ((name, value) :: attributes) =
      name.key ++ '"' :: (Html.escape value ++ '"' :: attributes.text) := by
  simp [text]

theorem ofPieces?_text (attributes : Attributes) :
    ofPieces? (Text.pieces '"' attributes.text) = some attributes := by
  induction attributes with
  | nil => rfl
  | cons entry attributes ih =>
    obtain ⟨name, value⟩ := entry
    have hquote : '"' ∈ delimiters := by decide
    rw [text_cons, Text.pieces_append (name.not_mem_key hquote),
      Text.pieces_append (not_mem_escape hquote value), ofPieces?, ih]
    simp

lemma not_mem_text {c : Char} (hc : c ∈ delimiters) (hquote : c ≠ '"') (attributes : Attributes) :
    c ∉ attributes.text := by
  induction attributes with
  | nil => exact List.not_mem_nil
  | cons entry attributes ih =>
    obtain ⟨name, value⟩ := entry
    have hkey := name.not_mem_key hc
    have hvalue := not_mem_escape hc value
    simp [text_cons, hkey, hvalue, hquote, ih]

/-- Attributes begin with a space, or there are none. -/
lemma stops_text (attributes : Attributes) : Text.Stops (· ≠ ' ') attributes.text := by
  cases attributes with
  | nil => simp [Text.Stops, text]
  | cons entry attributes =>
    obtain ⟨name, value⟩ := entry
    rw [text_cons]
    cases name <;> exact Text.stops_cons.mpr rfl

end Attributes

/-- An element: its name and attributes, the text right behind its opening tag, and the elements in
it. All texts are as they are meant, without references. -/
structure Element where
  name : ElementName
  attributes : Attributes := []
  text : Text := []
  children : List Element := []

namespace Element

def opening (name : ElementName) (attributes : Attributes) (text : Text) : Tag :=
  ⟨name.text ++ attributes.text, Html.escape text⟩

def closing (name : ElementName) : Tag := ⟨'/' :: name.text, []⟩

mutual
/-- The tags of an element in document order. -/
def tags : Element → List Tag
  | ⟨name, attributes, text, children⟩ =>
    opening name attributes text :: (allTags children ++ [closing name])

def allTags : List Element → List Tag
  | [] => []
  | element :: rest => element.tags ++ allTags rest
end

lemma not_mem_opening {c : Char} (hc : c ∈ delimiters) (hquote : c ≠ '"') (name : ElementName)
    (attributes : Attributes) (text : Text) : c ∉ (opening name attributes text).inner := by
  have hname : c ∉ name.text := name.not_mem_text (by simp [hc])
  simp [opening, hname, attributes.not_mem_text hc hquote]

lemma clean_opening (name : ElementName) (attributes : Attributes) (text : Text) :
    (opening name attributes text).Clean where
  inner := ⟨not_mem_opening (by decide) (by decide) name attributes text,
    not_mem_opening (by decide) (by decide) name attributes text⟩
  following := ⟨not_mem_escape (by decide) text, not_mem_escape (by decide) text⟩

lemma clean_closing (name : ElementName) : (closing name).Clean := by
  cases name <;> exact ⟨by decide, by decide⟩

mutual
theorem clean_of_mem_tags : ∀ {element : Element} {tag : Tag}, tag ∈ element.tags → tag.Clean
  | ⟨name, attributes, text, children⟩, tag, h => by
    simp only [tags, List.mem_cons, List.mem_append, List.not_mem_nil, or_false] at h
    rcases h with rfl | h | rfl
    · exact clean_opening name attributes text
    · exact clean_of_mem_allTags h
    · exact clean_closing name

theorem clean_of_mem_allTags : ∀ {elements : List Element} {tag : Tag},
    tag ∈ allTags elements → tag.Clean
  | [], _, h => by simp [allTags] at h
  | element :: rest, tag, h => by
    rcases List.mem_append.mp h with h | h
    · exact clean_of_mem_tags h
    · exact clean_of_mem_allTags h
end

/-! ## Reading elements -/

/-- The name and the attributes that an opening tag is written with. -/
def readOpening? (inner : Text) : Option (ElementName × Attributes) := do
  let name ← ElementName.ofText? (inner.takeWhile (· ≠ ' '))
  let attributes ← Attributes.ofPieces? (Text.pieces '"' (inner.dropWhile (· ≠ ' ')))
  return (name, attributes)

/-- An element whose closing tag is still to come, and the elements that stand before it. -/
structure Opened where
  name : ElementName
  attributes : Attributes
  text : Text
  before : List Element

/-- Reads tags one after the other. The elements at the present level are collected; those around it
wait on a stack for their closing tags, each of which must name the innermost one. -/
def nest? : List Opened → List Element → List Tag → Option (List Element)
  | [], elements, [] => some elements
  | _ :: _, _, [] => none
  | stack, elements, ⟨inner, following⟩ :: tags =>
    match Text.after? ['/'] inner, stack with
    | none, stack => do
      let (name, attributes) ← readOpening? inner
      nest? (⟨name, attributes, decode following, elements⟩ :: stack) [] tags
    | some _, [] => none
    | some closed, ⟨name, attributes, text, before⟩ :: stack =>
      if closed = name.text ∧ following = [] then
        nest? stack (before ++ [⟨name, attributes, text, elements⟩]) tags
      else none

/-- The elements that tags are balanced to. -/
def ofTags? (tags : List Tag) : Option (List Element) := nest? [] [] tags

variable {name : ElementName} {attributes : Attributes} {text : Text} {stack : List Opened}
  {elements : List Element} {rest : List Tag}

lemma readOpening?_opening (name : ElementName) (attributes : Attributes) (text : Text) :
    readOpening? (opening name attributes text).inner = some (name, attributes) := by
  have hname : ∀ c ∈ name.text, decide (c ≠ ' ') = true := fun c hc =>
    decide_eq_true (ne_of_mem_of_not_mem hc (name.not_mem_text (by simp)))
  unfold readOpening? opening
  rw [Text.takeWhile_run hname attributes.stops_text, Text.dropWhile_run hname attributes.stops_text,
    ElementName.ofText?_text, Attributes.ofPieces?_text]
  rfl

lemma nest?_opening : nest? stack elements (opening name attributes text :: rest) =
    nest? (⟨name, attributes, text, elements⟩ :: stack) [] rest := by
  have hslash : Text.after? ['/'] (opening name attributes text).inner = none := by
    cases name <;> rfl
  have hread := readOpening?_opening name attributes text
  simp only [opening] at hslash hread
  simp [opening, nest?, hslash, hread]

lemma nest?_closing {before : List Element} :
    nest? (⟨name, attributes, text, before⟩ :: stack) elements (closing name :: rest) =
      nest? stack (before ++ [⟨name, attributes, text, elements⟩]) rest := by
  simp [nest?, closing, Text.after?]

mutual
/-- The tags of an element add it to those at the present level. -/
theorem nest?_tags : ∀ (element : Element) (stack : List Opened) (elements : List Element)
    (rest : List Tag),
    nest? stack elements (element.tags ++ rest) = nest? stack (elements ++ [element]) rest
  | ⟨name, attributes, text, children⟩, stack, elements, rest => by
    rw [tags, List.cons_append, nest?_opening, List.append_assoc, nest?_allTags, List.nil_append,
      List.singleton_append, nest?_closing]

theorem nest?_allTags : ∀ (added : List Element) (stack : List Opened) (elements : List Element)
    (rest : List Tag),
    nest? stack elements (allTags added ++ rest) = nest? stack (elements ++ added) rest
  | [], stack, elements, rest => by simp [allTags]
  | element :: added, stack, elements, rest => by
    rw [allTags, List.append_assoc, nest?_tags, nest?_allTags, List.append_assoc,
      List.singleton_append]
end

/-- Elements are read back from their tags. -/
theorem ofTags?_tags (element : Element) : ofTags? element.tags = some [element] := by
  rw [ofTags?, ← List.append_nil element.tags, nest?_tags]
  rfl

/-! ## Writing elements -/

def html (element : Element) : Text := element.tags.flatMap Tag.text

def allHtml (elements : List Element) : Text := (allTags elements).flatMap Tag.text

lemma html_mk (name : ElementName) (attributes : Attributes) (text : Text)
    (children : List Element) :
    html ⟨name, attributes, text, children⟩ =
      '<' :: (name.text ++ attributes.text ++ '>' :: Html.escape text ++ allHtml children ++
        '<' :: '/' :: name.text ++ ['>']) := by
  simp [html, allHtml, tags, opening, closing, Tag.text]

@[simp] lemma allHtml_nil : allHtml [] = [] := rfl

lemma allHtml_cons (element : Element) (rest : List Element) :
    allHtml (element :: rest) = element.html ++ allHtml rest := by
  simp [html, allHtml, allTags]

/-- What is written for an element splits into its tags. -/
theorem tags?_html (element : Element) : tags? element.html = some element.tags :=
  tags?_flatMap_text fun _ => clean_of_mem_tags

end Element

end Markup

end WikiDirectives
