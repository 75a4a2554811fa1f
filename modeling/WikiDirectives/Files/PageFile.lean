import WikiDirectives.Article
import WikiDirectives.Files.Workspace

/-! Page files: their titles, and the articles in the directories that are named after them. -/
namespace WikiDirectives

namespace PageFile

/-- The first top heading of a page, unless it is blank. -/
def heading? (content : Text) : Option Text :=
  match content.lines.findSome? (Text.after? "# ".toList) with
  | none => none
  | some heading => if heading.trim.isEmpty then none else some heading.trim

/-- A title made of a file name: hyphens and low lines become spaces. -/
def nameTitle (path : Path) : Text :=
  (path.stem?.getD []).map fun c => if c = '-' || c = '_' then ' ' else c

def title (path : Path) (content : Text) : Text := (heading? content).getD (nameTitle path)

/-- The address of a page in a wiki whose pages lie in `root`. -/
def url (root page : Path) : Text :=
  '/' :: Text.joined ['/'] ((root.relativeTo page).dropExtension.components.map Component.text)

def pageExtension : Text := "md".toList

def isPageName (name : Text) : Bool := (Path.splitExtension name).2 = some pageExtension

end PageFile

/-- A place that was left out of an article list, or has its title from its file name. -/
inductive ListingWarning where
  | unreadableDirectory (path : Path) (error : FileError)
  | unreadablePage (path : Path) (error : FileError)
  deriving DecidableEq, Repr

namespace Workspace

/-- The pages in a directory, in name order. One whose path is too long to be followed is none. -/
def pagesIn (directory : Path) (entries : List (Text × FileTree)) : List Path :=
  let pages := entries.filter fun (name, tree) => tree.isFile && PageFile.isPageName name
  let names := (pages.map (·.1)).mergeSort fun a b => !Text.before b a
  (names.map directory.join).filter fun path => Text.byteLength path ≤ maxPathBytes

/-- The pages just below a page: those in the directory of its name without extension. -/
def pagesBelow (workspace : Workspace) (page : Path) : List Path :=
  match workspace.list page.dropExtension with
  | .ok entries => pagesIn page.dropExtension entries
  | .error _ => []

/-- The title of a page on file; one that cannot be read has its title from its name. -/
def pageTitle (workspace : Workspace) (page : Path) : Text :=
  match workspace.read page with
  | .ok content => PageFile.title page content
  | .error _ => PageFile.nameTitle page

/-- The articles below a page, down to a depth. -/
def articlesBelow (workspace : Workspace) (root page : Path) : Nat → List Article
  | 0 => []
  | depth + 1 => (workspace.pagesBelow page).map fun child =>
    { title := workspace.pageTitle child
      url := PageFile.url root child
      children := workspace.articlesBelow root child depth }

/-- What a listing has to say of the directory of a page. A missing directory is no news. -/
def directoryWarnings (workspace : Workspace) (page : Path) : List ListingWarning :=
  match workspace.list page.dropExtension with
  | .ok _ | .error .notFound => []
  | .error error => [.unreadableDirectory page.dropExtension error]

def pageWarnings (workspace : Workspace) (page : Path) : List ListingWarning :=
  match workspace.read page with
  | .ok _ => []
  | .error error => [.unreadablePage page error]

/-- What comes up while the articles below a page are listed, in the order it does. -/
def warningsBelow (workspace : Workspace) (page : Path) : Nat → List ListingWarning
  | 0 => []
  | depth + 1 => workspace.directoryWarnings page ++
    (workspace.pagesBelow page).flatMap fun child =>
      workspace.pageWarnings child ++ workspace.warningsBelow child depth

/-- A page file as the document of its directives. -/
def document (workspace : Workspace) (root page : Path) (content : Text) : Document where
  title := PageFile.title page content
  children := workspace.articlesBelow root page

end Workspace

end WikiDirectives
