import WikiDirectives.Text.Basic

/-! Articles and the document that a page's directives speak of. -/
namespace WikiDirectives

/-- An article with the articles below it. -/
structure Article where
  title : Text
  url : Text
  children : List Article := []
  deriving Repr, Inhabited

namespace Article

/-- The article down to a number of levels, itself being the first. -/
def pruned : Nat → Article → Article
  | depth + 2, article => { article with children := article.children.map (pruned (depth + 1)) }
  | _, article => { article with children := [] }

end Article

/-- A document: its title, and the articles below it down to a given depth. -/
structure Document where
  title : Text
  children : Nat → List Article

end WikiDirectives
