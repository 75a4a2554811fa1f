import WikiDirectives.Proofs.Markup
import WikiDirectives.Proofs.Tokens

/-! The HTML of an article list says exactly what was listed: it is the markup of a tree of elements,
from which the articles are read back. -/
namespace WikiDirectives

/-! ## Article lists as elements -/

open Markup (Element)

mutual
/-- The element of a list entry: a link, and one list of the articles below if there are any. -/
def Article.element : Article → Element
  | ⟨title, url, children⟩ =>
    { name := .li
      children := { name := .a, attributes := [(.href, url)], text := title } ::
        Article.sublist children }

def Article.sublist : List Article → List Element
  | [] => []
  | article :: rest => [{ name := .ul, children := article.element :: Article.elements rest }]

def Article.elements : List Article → List Element
  | [] => []
  | article :: rest => article.element :: Article.elements rest
end

/-- The element of an article list: one paragraph if there are no articles, or else one list. -/
def Article.listElement (title : Text) (articles : List Article) (depth : ℕ) : Element where
  name := .nav
  attributes := [(.classes, "article-list".toList), (.depth, Text.decimal depth)]
  children := match articles with
    | [] =>
      [{ name := .p
         attributes := [(.classes, "article-list-empty".toList)]
         text := "There are no articles below ".toList ++ title ++ ['.'] }]
    | article :: rest => Article.sublist (article :: rest)

mutual
def Article.ofElement? : Element → Option Article
  | ⟨.li, [], [], [⟨.a, [(.href, url)], title, []⟩]⟩ => some ⟨title, url, []⟩
  | ⟨.li, [], [], [⟨.a, [(.href, url)], title, []⟩, ⟨.ul, [], [], first :: rest⟩]⟩ => do
    let first ← Article.ofElement? first
    let rest ← Article.ofElements? rest
    return ⟨title, url, first :: rest⟩
  | _ => none

def Article.ofElements? : List Element → Option (List Article)
  | [] => some []
  | element :: rest => do
    let article ← Article.ofElement? element
    let articles ← Article.ofElements? rest
    return article :: articles
end

/-- What an article list says: the articles below a page, or the title of a page that has none. -/
inductive Listing where
  | articles (articles : List Article)
  | nothingBelow (title : Text)

namespace Listing

def ofSentence? (sentence : Text) : Option Listing := do
  let rest ← Text.after? "There are no articles below ".toList sentence
  if rest.getLast? = some '.' then some (nothingBelow rest.dropLast) else none

def ofElement? : Element → Option Listing
  | ⟨.nav, _, [], [⟨.p, _, sentence, []⟩]⟩ => ofSentence? sentence
  | ⟨.nav, _, [], [⟨.ul, [], [], entries⟩]⟩ => (Article.ofElements? entries).map articles
  | _ => none

/-- Reads the HTML of an article list: its tags, the elements they make up, and what these say. -/
def read? (html : Text) : Option Listing := do
  match ← Element.ofTags? (← Markup.tags? html) with
  | [element] => ofElement? element
  | _ => none

end Listing

/-! ## Written and read -/

lemma Html.item_mk (title url : Text) (children : List Article) :
    Html.item ⟨title, url, children⟩ =
      "<li><a href=\"".toList ++ Html.escape url ++ "\">".toList ++ Html.escape title ++
        "</a>".toList ++ Html.sublist children ++ "</li>".toList :=
  rfl

lemma Html.sublist_cons (article : Article) (rest : List Article) :
    Html.sublist (article :: rest) =
      "<ul>".toList ++ Html.item article ++ Html.items rest ++ "</ul>".toList :=
  rfl

mutual
theorem Article.item_eq : ∀ article : Article, Html.item article = article.element.html
  | ⟨title, url, children⟩ => by
    rw [Html.item_mk, Article.sublist_eq children, Article.element, Element.html_mk,
      Element.allHtml_cons, Element.html_mk, Markup.Attributes.text_cons]
    simp only [List.append_assoc, List.cons_append]
    rfl

theorem Article.sublist_eq : ∀ articles : List Article,
    Html.sublist articles = Element.allHtml (Article.sublist articles)
  | [] => rfl
  | article :: rest => by
    rw [Html.sublist_cons, Article.item_eq article, Article.items_eq rest, Article.sublist,
      Element.allHtml_cons, Element.html_mk, Element.allHtml_cons, Element.allHtml_nil,
      List.append_nil]
    simp only [List.append_assoc]
    rfl

theorem Article.items_eq : ∀ articles : List Article,
    Html.items articles = Element.allHtml (Article.elements articles)
  | [] => rfl
  | article :: rest => by
    rw [Html.items, Article.item_eq article, Article.items_eq rest, Article.elements,
      Element.allHtml_cons]
end

lemma Html.articleList_nil (title : Text) (depth : ℕ) :
    Html.articleList title [] depth =
      "<nav class=\"article-list\" data-depth=\"".toList ++ Text.decimal depth ++ "\">".toList ++
        ("<p class=\"article-list-empty\">There are no articles below ".toList ++
          Html.escape title ++ ".</p>".toList) ++ "</nav>".toList :=
  rfl

lemma Html.articleList_cons (title : Text) (article : Article) (rest : List Article) (depth : ℕ) :
    Html.articleList title (article :: rest) depth =
      "<nav class=\"article-list\" data-depth=\"".toList ++ Text.decimal depth ++ "\">".toList ++
        Html.sublist (article :: rest) ++ "</nav>".toList :=
  rfl

lemma Html.escape_append (s t : Text) : Html.escape (s ++ t) = Html.escape s ++ Html.escape t :=
  List.flatMap_append

lemma Html.escape_eq_self {s : Text} (h : ∀ c ∈ s, Html.escapeChar c = [c]) :
    Html.escape s = s := by
  induction s with
  | nil => rfl
  | cons c s ih =>
    rw [Html.escape, List.flatMap_cons, h c List.mem_cons_self, ← Html.escape,
      ih fun d hd => h d (List.mem_cons_of_mem _ hd), List.singleton_append]

lemma Html.escapeChar_of_isDigit {c : Char} (hc : c.isDigit = true) : Html.escapeChar c = [c] := by
  fun_cases Html.escapeChar c with
  | case6 => rfl
  | _ => exact absurd hc (by decide)

lemma Html.escape_decimal (n : ℕ) : Html.escape (Text.decimal n) = Text.decimal n :=
  Html.escape_eq_self fun _ hc => Html.escapeChar_of_isDigit (Text.isDigit_of_mem_decimal hc)

theorem Article.articleList_eq (title : Text) (articles : List Article) (depth : ℕ) :
    Html.articleList title articles depth = (Article.listElement title articles depth).html := by
  cases articles with
  | nil =>
    rw [Html.articleList_nil, Article.listElement, Element.html_mk, Element.allHtml_cons,
      Element.html_mk, Html.escape_append, Html.escape_append, Markup.Attributes.text_cons,
      Markup.Attributes.text_cons, Html.escape_decimal]
    simp only [List.append_assoc, List.cons_append]
    rfl
  | cons article rest =>
    rw [Html.articleList_cons, Article.sublist_eq, Article.listElement, Element.html_mk,
      Markup.Attributes.text_cons, Markup.Attributes.text_cons, Html.escape_decimal]
    simp only [List.append_assoc, List.cons_append]
    rfl

mutual
theorem Article.ofElement?_element : ∀ article : Article,
    Article.ofElement? article.element = some article
  | ⟨title, url, []⟩ => rfl
  | ⟨title, url, first :: rest⟩ => by
    rw [Article.element, Article.sublist, Article.ofElement?, Article.ofElement?_element first,
      Article.ofElements?_elements rest]
    rfl

theorem Article.ofElements?_elements : ∀ articles : List Article,
    Article.ofElements? (Article.elements articles) = some articles
  | [] => rfl
  | article :: rest => by
    rw [Article.elements, Article.ofElements?, Article.ofElement?_element article,
      Article.ofElements?_elements rest]
    rfl
end

lemma Listing.ofSentence?_nothingBelow (title : Text) :
    Listing.ofSentence? ("There are no articles below ".toList ++ title ++ ['.']) =
      some (.nothingBelow title) := by
  rw [List.append_assoc, Listing.ofSentence?, Text.after?_append]
  simp

theorem Listing.ofElement?_listElement (title : Text) (articles : List Article) (depth : ℕ) :
    Listing.ofElement? (Article.listElement title articles depth) =
      some (if articles.isEmpty then .nothingBelow title else .articles articles) := by
  cases articles with
  | nil => exact Listing.ofSentence?_nothingBelow title
  | cons article rest =>
    have hread := Article.ofElements?_elements (article :: rest)
    rw [Article.elements] at hread
    rw [Article.listElement, Article.sublist, Listing.ofElement?, hread]
    rfl

/-- An article list is faithful and free of foreign markup. Whatever stands in titles and addresses,
its HTML splits at the angle brackets into exactly the tags of the template, in document order and
balanced, and with the references decoded its elements say again what was listed: the articles at
their levels, or the title of the page that has none. -/
theorem articleList_faithful (title : Text) (articles : List Article) (depth : ℕ) :
    let html := Html.articleList title articles depth
    let element := Article.listElement title articles depth
    Markup.tags? html = some element.tags ∧ Element.ofTags? element.tags = some [element] ∧
      Listing.read? html =
        some (if articles.isEmpty then .nothingBelow title else .articles articles) := by
  intro html element
  have htags : Markup.tags? html = some element.tags := by
    rw [← Element.tags?_html]
    exact congrArg _ (Article.articleList_eq title articles depth)
  have helements := Element.ofTags?_tags element
  refine ⟨htags, helements, ?_⟩
  simp only [Listing.read?, htags, helements, Option.bind_eq_bind, Option.bind_some]
  exact Listing.ofElement?_listElement title articles depth

end WikiDirectives
