import WikiDirectives.Article

/-! The HTML of an article list. -/
namespace WikiDirectives.Html

def escapeChar : Char → Text
  | '&' => "&amp;".toList
  | '<' => "&lt;".toList
  | '>' => "&gt;".toList
  | '"' => "&quot;".toList
  | '\x27' => "&#39;".toList
  | c => [c]

/-- A text with the characters that mean something in HTML written as references. -/
def escape (s : Text) : Text := s.flatMap escapeChar

mutual
/-- A list entry: a link to the article, and the list of the articles below it if there are any. -/
def item : Article → Text
  | ⟨title, url, children⟩ =>
    "<li><a href=\"".toList ++ escape url ++ "\">".toList ++ escape title ++ "</a>".toList ++
      sublist children ++ "</li>".toList

def sublist : List Article → Text
  | [] => []
  | article :: rest => "<ul>".toList ++ item article ++ items rest ++ "</ul>".toList

def items : List Article → Text
  | [] => []
  | article :: rest => item article ++ items rest
end

/-- The navigation element with the articles below a page. -/
def articleList (title : Text) (articles : List Article) (depth : Nat) : Text :=
  "<nav class=\"article-list\" data-depth=\"".toList ++ Text.decimal depth ++ "\">".toList ++
    (match articles with
      | [] => "<p class=\"article-list-empty\">There are no articles below ".toList ++
          escape title ++ ".</p>".toList
      | articles => sublist articles) ++
    "</nav>".toList

end WikiDirectives.Html
