import WikiDirectives.Handler
import WikiDirectives.Html

/-! The handlers that every wiki has. -/
namespace WikiDirectives.Builtin

/-- Leaves a mark that a table of contents is to stand here. -/
def toc : Handler where
  name := "toc".toList
  help :=
    { short := "Table of contents".toList
      long := "Insert a table of contents of the article.".toList
      sample := "[TOC]".toList }
  script args _ := .check (args.expectOnly []) fun _ => .line "[TOC]".toList

/-- Stands for the short form of links, and leaves an empty line. -/
def wikilink : Handler where
  name := "wikilink".toList
  help :=
    { short := "WikiLinks".toList
      long := "Insert a link to another wiki page with a short notation.".toList
      sample := "[[WikiLink]]".toList }
  script args _ := .check (args.expectOnly []) fun _ => .line []

/-- The greatest depth of an article list. -/
def maxDepth : Nat := 16

/-- The depth of an article list when none is set. -/
def usualDepth : Nat := 2

def depthArgument : Text := "depth".toList

/-- The depth that the arguments ask for, at most `maxDepth`. -/
def depthOf (defaultDepth : Nat) (args : Arguments) : Except Fault Nat := do
  args.expectOnly [depthArgument]
  let depth := (← args.read (Reader.natural wordBound) depthArgument).getD defaultDepth
  if depth ≤ maxDepth then .ok depth
  else .error (.invalidArgument depthArgument (Text.decimal depth) (.depthAbove maxDepth))

/-- Lists the articles below the page. A list of some depth has one level more than that, and its
HTML goes into the stash. -/
def articleList (defaultDepth : Nat) : Handler where
  name := "article_list".toList
  help :=
    Help.withArg
      { short := "Article list".toList
        long := "Insert a list of all articles below this one.".toList
        sample := "[article_list depth:2]".toList }
      depthArgument "Maximum depth to show levels for.".toList
  script args place :=
    .check (depthOf defaultDepth args) fun depth =>
      .children (depth + 1) fun articles =>
        let shown := articles.map (Article.pruned (depth + 1))
        .put (Html.articleList place.title shown (depth + 1)) fun token => .line token

/-- The built-in handlers with the usual settings. -/
def all : List Handler := [toc, articleList usualDepth, wikilink]

end WikiDirectives.Builtin
