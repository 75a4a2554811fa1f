import WikiDirectives.Proofs.LegalDepths
import WikiDirectives.Proofs.NameOrder
import WikiDirectives.Proofs.PageListing

/-! The pages below a page form one hierarchy. A listing is this hierarchy cut at a depth, and does not
depend on the order in which directories are read. -/
namespace WikiDirectives

namespace Workspace
variable {workspace : Workspace} {root page directory : Path} {entries seen : List (Text × FileTree)}

/-! ## Cutting -/

/-- A deeper listing cut at a depth is the listing of that depth. A depth counts the levels below a
page, and what is left of an article counts the article itself: so the two count alike. -/
theorem map_pruned_articlesBelow {depth deeper : ℕ} (h : depth ≤ deeper) (page : Path) :
    (workspace.articlesBelow root page (deeper + 1)).map (Article.pruned (depth + 1)) =
      workspace.articlesBelow root page (depth + 1) := by
  induction depth generalizing deeper page with
  | zero => simp [articlesBelow, Article.pruned]
  | succ depth ih =>
    obtain ⟨deeper, rfl⟩ : ∃ lower, deeper = lower + 1 := ⟨deeper - 1, by omega⟩
    have hle : depth ≤ deeper := by omega
    rw [articlesBelow, articlesBelow, List.map_map]
    refine List.map_congr_left fun child _ => ?_
    simp only [Function.comp_apply, Article.pruned, ih hle child]

theorem map_pruned_children {content : Text} {depth deeper : ℕ} (hpos : 1 ≤ depth)
    (hle : depth ≤ deeper) :
    ((workspace.document root page content).children deeper).map (Article.pruned depth) =
      (workspace.document root page content).children depth := by
  obtain ⟨depth, rfl⟩ : ∃ lower, depth = lower + 1 := ⟨depth - 1, by omega⟩
  obtain ⟨deeper, rfl⟩ : ∃ lower, deeper = lower + 1 := ⟨deeper - 1, by omega⟩
  exact map_pruned_articlesBelow (by omega) page

/-! ## Reading directories -/

/-- The pages of a directory, whatever the order in which its entries are seen. -/
theorem pagesIn_eq_of_perm (h : seen.Perm entries) :
    pagesIn directory seen = pagesIn directory entries := by
  unfold pagesIn
  dsimp only
  rw [Text.mergeSort_eq_of_perm ((h.filter _).map _)]

/-- The articles below a page when each time that a directory is read its entries may be seen in another
order. -/
inductive Gathers (workspace : Workspace) (root : Path) : Path → ℕ → List Article → Prop
  | cut (page : Path) : Gathers workspace root page 0 []
  | unread {page : Path} {depth : ℕ} {error : FileError}
      (hlist : workspace.list page.dropExtension = .error error) :
      Gathers workspace root page (depth + 1) []
  | level {page : Path} {depth : ℕ} {entries seen : List (Text × FileTree)} {below : Path → List Article}
      (hlist : workspace.list page.dropExtension = .ok entries) (hseen : seen.Perm entries)
      (hbelow : ∀ child ∈ pagesIn page.dropExtension seen,
        Gathers workspace root child depth (below child)) :
      Gathers workspace root page (depth + 1)
        ((pagesIn page.dropExtension seen).map fun child =>
          ⟨workspace.pageTitle child, PageFile.url root child, below child⟩)

theorem Gathers.eq {depth : ℕ} {articles : List Article}
    (h : workspace.Gathers root page depth articles) :
    articles = workspace.articlesBelow root page depth := by
  induction h with
  | cut page => rfl
  | unread hlist => rw [articlesBelow, pagesBelow, hlist, List.map_nil]
  | level hlist hseen hbelow ih =>
    rw [articlesBelow, pagesBelow, hlist]
    simp only [← pagesIn_eq_of_perm hseen]
    refine List.map_congr_left fun child hchild => ?_
    rw [ih child hchild]

theorem gathers_articlesBelow (workspace : Workspace) (root page : Path) (depth : ℕ) :
    workspace.Gathers root page depth (workspace.articlesBelow root page depth) := by
  induction depth generalizing page with
  | zero => exact .cut page
  | succ depth ih =>
    rw [articlesBelow, pagesBelow]
    cases hlist : workspace.list page.dropExtension with
    | error error => exact .unread hlist
    | ok entries => exact .level hlist (.refl entries) fun child _ => ih child

/-! ## Levels -/

/-- The names of the pages in the directory of a page: the page files there, once each and in name order.
A file whose path is too long to be followed is not among them, and none is if the directory cannot be
read. -/
structure IsLevel (workspace : Workspace) (page : Path) (names : List Text) : Prop where
  ascending : names.Pairwise fun a b => Text.before a b = true
  mem_iff : ∀ name, name ∈ names ↔ ∃ entries content,
    workspace.list page.dropExtension = .ok entries ∧ (name, .file content) ∈ entries ∧
      (∃ stem, stem ≠ [] ∧ name = PageFile.pageName stem) ∧
      Text.byteLength (page.dropExtension.join name) ≤ maxPathBytes

lemma mem_pages_iff {name : Text} :
    name ∈ (entries.filter fun (name, tree) => tree.isFile && PageFile.isPageName name).map (·.1) ↔
      (∃ content, (name, .file content) ∈ entries) ∧
        ∃ stem, stem ≠ [] ∧ name = PageFile.pageName stem := by
  rw [← PageFile.isPageName_iff, List.mem_map]
  constructor
  · rintro ⟨⟨name, tree⟩, hmem, rfl⟩
    obtain ⟨hentry, hpage⟩ := List.mem_filter.mp hmem
    obtain ⟨hfile, hname⟩ : tree.isFile = true ∧ PageFile.isPageName name = true := by simpa using hpage
    cases tree with
    | file content => exact ⟨⟨content, hentry⟩, hname⟩
    | directory entries => simp [FileTree.isFile] at hfile
  · rintro ⟨⟨content, hentry⟩, hname⟩
    exact ⟨(name, .file content), List.mem_filter.mpr ⟨hentry, by simpa [FileTree.isFile]⟩, rfl⟩

/-- Below every page stands its level. -/
theorem exists_isLevel (hfiles : workspace.files.WellFormed) (page : Path) :
    ∃ names, workspace.IsLevel page names ∧
      workspace.pagesBelow page = names.map page.dropExtension.join := by
  unfold pagesBelow
  cases hlist : workspace.list page.dropExtension with
  | error error => exact ⟨[], ⟨.nil, by simp [hlist]⟩, rfl⟩
  | ok entries =>
    obtain ⟨home, -, hentries⟩ := exists_of_list hlist
    obtain ⟨nodup, -⟩ := (hfiles.at? hentries).names
    let pages := (entries.filter fun (name, tree) => tree.isFile && PageFile.isPageName name).map (·.1)
    let short (name : Text) : Bool := Text.byteLength (page.dropExtension.join name) ≤ maxPathBytes
    have hnodup : (pages.map id).Nodup := by
      rw [List.map_id]
      exact nodup.sublist (List.filter_sublist.map _)
    refine ⟨(pages.mergeSort fun a b => !Text.before b a).filter short, ⟨?_, fun name => ?_⟩, ?_⟩
    · exact (Text.ascending_mergeSort hnodup).sublist List.filter_sublist
    · rw [List.mem_filter, List.mem_mergeSort, mem_pages_iff]
      simp only [short, decide_eq_true_eq, hlist, Except.ok.injEq]
      constructor
      · rintro ⟨⟨⟨content, hentry⟩, hname⟩, hshort⟩
        exact ⟨entries, content, rfl, hentry, hname, hshort⟩
      · rintro ⟨_, content, rfl, hentry, hname, hshort⟩
        exact ⟨⟨⟨content, hentry⟩, hname⟩, hshort⟩
    · exact List.filter_map

end Workspace

/-! ## Article lists -/

namespace Builtin
variable {document source : Document}

/-- A document gives one hierarchy, cut at the depth that is asked for. -/
def OneHierarchy (document : Document) : Prop :=
  ∀ depth deeper, 1 ≤ depth → depth ≤ deeper →
    (document.children deeper).map (Article.pruned depth) = document.children depth

/-- A source that gives more of the hierarchy than it is asked for is listed alike. -/
theorem listing_eq_of_deeper (h : OneHierarchy document) (htitle : source.title = document.title)
    {depth deeper : ℕ} (hle : depth + 1 ≤ deeper)
    (hdeeper : source.children (depth + 1) = document.children deeper) :
    listing source depth = listing document depth := by
  have hpos : 1 ≤ depth + 1 := Nat.le_add_left 1 depth
  rw [listing, listing, htitle, hdeeper, h _ _ hpos hle, h _ _ hpos le_rfl]

theorem run_articleList_of_deeper (h : OneHierarchy document) (htitle : source.title = document.title)
    (hdeeper : ∀ depth ≤ maxDepth + 1, ∃ deeper ≥ depth,
      source.children depth = document.children deeper)
    (defaultDepth : ℕ) (args : Arguments) (number : ℕ) (session : Session) :
    ((articleList defaultDepth).script args ⟨source.title, number⟩).run source session =
      ((articleList defaultDepth).script args ⟨document.title, number⟩).run document session := by
  rw [run_articleList_script, run_articleList_script]
  cases hdepth : depthOf defaultDepth args with
  | error fault => rfl
  | ok depth =>
    have hle : depth ≤ maxDepth := (depthOf_eq_ok_iff.mp hdepth).le
    obtain ⟨deeper, hge, hchildren⟩ := hdeeper (depth + 1) (Nat.succ_le_succ hle)
    dsimp only
    rw [listing_eq_of_deeper h htitle hge hchildren]

end Builtin

namespace Workspace

/-- The articles below a page are one hierarchy, cut at the depth that is asked for. To depth zero there
are none. To a depth of at least one they are what is left of those to any greater depth; so a list of
them comes out the same from a source that gives more levels than it is asked for. They are the same in
whatever order each directory is read. And on every level stand the page files of the directory that
belongs to the page above, once each and in name order, but for those whose path is too long to be
followed. -/
theorem document_children_hierarchy (workspace : Workspace) (hfiles : workspace.files.WellFormed)
    (root page : Path) (content : Text) :
    let document := workspace.document root page content
    document.children 0 = [] ∧
    (∀ depth deeper, 1 ≤ depth → depth ≤ deeper →
      (document.children deeper).map (Article.pruned depth) = document.children depth) ∧
    (∀ source : Document, source.title = document.title →
      (∀ depth ≤ Builtin.maxDepth + 1, ∃ deeper ≥ depth,
        source.children depth = document.children deeper) →
      ∀ defaultDepth args number session,
        ((Builtin.articleList defaultDepth).script args ⟨source.title, number⟩).run source session =
          ((Builtin.articleList defaultDepth).script args ⟨document.title, number⟩).run document
            session) ∧
    (∀ depth articles, workspace.Gathers root page depth articles ↔
      articles = document.children depth) ∧
    (∀ depth, document.children (depth + 1) = (workspace.pagesBelow page).map fun child =>
      ⟨workspace.pageTitle child, PageFile.url root child,
        (workspace.document root child content).children depth⟩) ∧
    ∀ above, ∃ names, workspace.IsLevel above names ∧
      workspace.pagesBelow above = names.map above.dropExtension.join := by
  intro document
  have hcuts : Builtin.OneHierarchy document := fun _ _ hpos hle => map_pruned_children hpos hle
  refine ⟨rfl, hcuts, ?_, ?_, fun depth => rfl, exists_isLevel hfiles⟩
  · intro source htitle hdeeper
    exact Builtin.run_articleList_of_deeper hcuts htitle hdeeper
  · intro depth articles
    constructor
    · exact Gathers.eq
    · rintro rfl
      exact gathers_articlesBelow workspace root page depth

/-- A page with a page below it that has a page below it: what is left of a deeper listing, and the list
that is made from a source which always gives all. -/
theorem document_children_hierarchy_install :
    let workspace := guideWiki [("install.md".toList, .file .empty),
      ("install".toList, .directory [("linux.md".toList, .file .empty)])]
    let document := workspace.document [] "/guide.md".toList []
    let source : Document := ⟨document.title, fun _ => document.children 17⟩
    workspace.files.WellFormed ∧
      ((document.children 2).flatMap (·.children)).map (·.title) = ["linux".toList] ∧
      (document.children 2).map (Article.pruned 1) = document.children 1 ∧
      ((Builtin.articleList 1).script .empty ⟨source.title, 1⟩).run source {} =
        ((Builtin.articleList 1).script .empty ⟨document.title, 1⟩).run document {} := by
  intro workspace document source
  have hfiles : workspace.files.WellFormed := by
    refine wellFormed_guideWiki (.directory (by decide) (by simpa using (by decide)) ?_)
    refine List.forall_mem_cons.mpr ⟨.file _, List.forall_mem_singleton.mpr ?_⟩
    refine .directory (by decide) (by simpa using (by decide)) ?_
    simpa using .file _
  obtain ⟨-, hcuts, hsource, -⟩ := document_children_hierarchy workspace hfiles [] "/guide.md".toList []
  refine ⟨hfiles, by decide +kernel, hcuts 1 2 (by decide) (by decide), ?_⟩
  exact hsource source rfl (fun depth hdepth => ⟨17, hdepth, rfl⟩) 1 .empty 1 {}

/-! ## Paths that are too long -/

lemma children_one_of_pagesBelow {workspace : Workspace} {page : Path}
    (h : workspace.pagesBelow page = []) (root : Path) (content : Text) :
    (workspace.document root page content).children 1 = [] := by
  simp only [document, articlesBelow, h, List.map_nil]

/-- A directory whose entries all have paths that are too long gives no pages. -/
lemma pagesBelow_eq_nil {workspace : Workspace} {page : Path} {entries : List (Text × FileTree)}
    (hlist : workspace.list page.dropExtension = .ok entries)
    (hlong : ∀ entry ∈ entries, maxPathBytes < Text.byteLength (page.dropExtension.join entry.1)) :
    workspace.pagesBelow page = [] := by
  rw [pagesBelow, hlist]
  refine List.eq_nil_iff_forall_not_mem.mpr fun child hchild => ?_
  obtain ⟨stem, tree, hentry, -, -, rfl, hshort⟩ := exists_of_mem_pagesIn hchild
  exact Nat.not_lt.mpr hshort (hlong _ hentry)

lemma pieces_slashes (count : ℕ) :
    Text.pieces '/' (List.replicate count '/') = List.replicate (count + 1) [] := by
  induction count with
  | zero => rfl
  | succ count ih =>
    rw [List.replicate_succ, Text.pieces, if_pos rfl, ih]
    rfl

/-- A dot and some slashes: where the path that follows would start anyway. -/
def slashes (count : ℕ) : Text := '.' :: List.replicate (count + 1) '/'

lemma isFront_slashes (count : ℕ) : Path.IsFront (slashes count) := by
  rw [slashes, List.replicate_succ', ← List.cons_append]
  exact Path.isFront_slash _

lemma enter_slashes {workspace : Workspace} {entries : List (Text × FileTree)}
    (hcurrent : workspace.files.at? workspace.current = some (.directory entries)) (count : ℕ) :
    workspace.enter (slashes count) = .ok workspace.current := by
  have hpieces : Text.pieces '/' (slashes count) = ['.'] :: List.replicate (count + 1) [] := by
    rw [slashes, Text.pieces, if_neg (by decide), pieces_slashes, List.replicate_succ]
  rw [enter, hpieces]
  refine follow_voids hcurrent fun piece hmem => ?_
  have hcases : piece = ['.'] ∨ piece = [] := by
    simpa using (List.dropLast_sublist _).subset hmem
  rcases hcases with rfl | rfl <;> rfl

lemma byteLength_slashes_append (count : ℕ) (name : Text) :
    Text.byteLength (slashes count ++ name) = count + 2 + Text.byteLength name := by
  have hdot : '.'.utf8Size = 1 := rfl
  have hslash : '/'.utf8Size = 1 := rfl
  simp only [Text.byteLength_eq_sum, slashes, List.cons_append, List.map_cons, List.map_append,
    List.map_replicate, List.sum_cons, List.sum_append, List.sum_replicate_nat, hdot, hslash]
  omega

lemma locate_slashes {workspace : Workspace} {entries : List (Text × FileTree)} {name : Text} {count : ℕ}
    (hcurrent : workspace.files.at? workspace.current = some (.directory entries)) (hslash : '/' ∉ name)
    (hne : name ≠ []) (hshort : count + 2 + Text.byteLength name ≤ maxPathBytes) :
    workspace.locate (slashes count ++ name) = step workspace.files workspace.current name := by
  rw [locate, if_neg (by rw [byteLength_slashes_append]; omega),
    trace_append _ (isFront_slashes count) hslash hne, enter_slashes hcurrent]
  rfl

/-- Slashes that leave room for the name of a directory in a path, but not for that of a file in it. -/
lemma pagesBelow_slashes (count : ℕ) (hroom : count + 10 ≤ maxPathBytes)
    (hlong : maxPathBytes < count + 18) :
    let workspace := guideWiki [("install.md".toList, .file .empty)]
    let page : Path := slashes count ++ PageFile.pageName "guide".toList
    workspace.locate page = .ok ["guide.md".toList] ∧
      workspace.list page.dropExtension = .ok [("install.md".toList, .file .empty)] ∧
      workspace.pagesBelow page = [] := by
  intro workspace page
  have hlocate {name : Text} (hslash : '/' ∉ name) (hne : name ≠ [])
      (hbytes : Text.byteLength name ≤ 8) :
      workspace.locate (slashes count ++ name) = step workspace.files [] name :=
    locate_slashes rfl hslash hne (by omega)
  have hdirectory : page.dropExtension = slashes count ++ "guide".toList := by
    rw [PageFile.dropExtension_page (isFront_slashes count) (by decide)]
    rfl
  have hlist : workspace.list page.dropExtension = .ok [("install.md".toList, .file .empty)] := by
    rw [list, node, hdirectory, hlocate (by decide) (by decide) (by decide)]
    rfl
  refine ⟨?_, hlist, ?_⟩
  · rw [hlocate (by decide) (by decide) (by decide)]
    decide +kernel
  · have hjoin : page.dropExtension.join "install.md".toList =
        slashes count ++ "guide/install.md".toList := by
      rw [hdirectory, Path.join_name (by simp) (by simp) (by decide), List.append_assoc,
        List.append_assoc]
      rfl
    refine pagesBelow_eq_nil hlist (List.forall_mem_singleton.mpr ?_)
    rw [hjoin, byteLength_slashes_append]
    exact hlong

/-- A guide page in the current directory, with nothing beside the way to it. -/
def guideWikiAt (place : Location) (below : List (Text × FileTree)) : Workspace where
  files := (guideWiki below).files.under place
  current := place
  environment := .empty

/-- A place that leaves room for a page and its directory in their absolute paths, but not for that of a
file in the directory. -/
lemma pagesBelow_guideWikiAt {place : Location} (hnames : ∀ name ∈ place, IsFileName name)
    (hne : place ≠ []) (hroom : Text.byteLength place.path + 9 < maxPathBytes)
    (hlong : maxPathBytes < Text.byteLength place.path + 17) :
    let workspace := guideWikiAt place [("install.md".toList, .file .empty)]
    let page := workspace.absolute "guide.md".toList
    page = Location.path (place ++ ["guide.md".toList]) ∧
      workspace.list page.dropExtension = .ok [("install.md".toList, .file .empty)] ∧
      workspace.pagesBelow page = [] := by
  intro workspace page
  have hdirectoryNames : ∀ name ∈ place ++ ["guide".toList], IsFileName name :=
    List.forall_mem_append.mpr ⟨hnames, by decide⟩
  have hpage : page = Location.path (place ++ ["guide.md".toList]) := by
    have hfile : workspace.files.at? (place ++ ["guide.md".toList]) = some (.file .empty) :=
      FileTree.at?_under _ _ _
    have hbytes : Text.byteLength (Location.path (place ++ ["guide.md".toList])) < maxPathBytes := by
      rw [Location.byteLength_path_append hne]
      exact hroom
    have hcanonical : workspace.canonical "guide.md".toList = .ok (place ++ ["guide.md".toList]) :=
      resolve_names (by decide) hfile hbytes []
    show workspace.absolute _ = _
    rw [absolute, hcanonical]
  have hdirectory : page.dropExtension = Location.path (place ++ ["guide".toList]) := by
    have hpageName : "guide.md".toList = PageFile.pageName "guide".toList := by decide
    have hdirectoryName : PageFile.directoryName "guide".toList = "guide".toList := by decide
    rw [hpage, Location.path_concat hne, Location.path_concat hne, hpageName,
      PageFile.dropExtension_page (Path.isFront_slash _) (by decide), hdirectoryName]
  have hlist : workspace.list page.dropExtension = .ok [("install.md".toList, .file .empty)] := by
    have hat : workspace.files.at? (place ++ ["guide".toList]) =
        some (.directory [("install.md".toList, .file .empty)]) := FileTree.at?_under _ _ _
    have hbytes : Text.byteLength (Location.path (place ++ ["guide".toList])) ≤ maxPathBytes := by
      rw [Location.byteLength_path_append hne]
      exact (Nat.add_le_add_left (by decide) _).trans hroom.le
    have hthere : InPlace { workspace with current := place ++ ["guide".toList] } :=
      ⟨hdirectoryNames, _, hat⟩
    have htrace : workspace.trace (Location.path (place ++ ["guide".toList])) =
        .ok (place ++ ["guide".toList]) := (trace_moved _ rfl).symm.trans (trace_current hthere)
    rw [list, node, hdirectory, locate, if_neg (Nat.not_lt.mpr hbytes), htrace]
    simp only [hat]
  refine ⟨hpage, hlist, pagesBelow_eq_nil hlist (List.forall_mem_singleton.mpr ?_)⟩
  rw [hdirectory, Path.join_path_fileName hdirectoryNames (by decide), List.append_assoc,
    Location.byteLength_path_append hne]
  exact hlong

/-- A page whose own path and whose directory can be followed, while the path of the page file in this
directory is too long: the file is in the directory and not on the level. This comes about by a path with
a detour, where it is one byte that is too much, and also by the absolute path of a page deep down. -/
theorem document_children_longPath :
    let below : List (Text × FileTree) := [("install.md".toList, .file .empty)]
    let workspace := guideWiki below
    let page : Path := slashes 4078 ++ PageFile.pageName "guide".toList
    let place := Location.deep 16 254
    let deeper := guideWikiAt place below
    let absolute := deeper.absolute "guide.md".toList
    workspace.files.WellFormed ∧
      workspace.locate page = .ok ["guide.md".toList] ∧
      workspace.list page.dropExtension = .ok below ∧
      (workspace.document [] page []).children 1 = [] ∧
    deeper.files.WellFormed ∧ deeper.InPlace ∧
      absolute = Location.path (place ++ ["guide.md".toList]) ∧
      deeper.list absolute.dropExtension = .ok below ∧
      (deeper.document place.path absolute []).children 1 = [] := by
  intro below workspace page place deeper absolute
  have hfiles : workspace.files.WellFormed := by
    refine wellFormed_guideWiki (.directory (by decide) ?_ (List.forall_mem_singleton.mpr (.file _)))
    exact List.forall_mem_singleton.mpr (by decide)
  have hnames : ∀ name ∈ place, IsFileName name := Location.isFileName_deep (by decide) (by decide)
  have hbytes : Text.byteLength place.path = 4080 := Location.byteLength_deep (by decide) 254
  obtain ⟨hlocate, hlist, hpages⟩ := pagesBelow_slashes 4078 (by decide) (by decide)
  obtain ⟨habsolute, hlistDeep, hpagesDeep⟩ := pagesBelow_guideWikiAt hnames
    (Location.deep_ne_nil (by decide) 254) (by rw [hbytes]; decide) (by rw [hbytes]; decide)
  have hplace : deeper.files.at? place = some workspace.files := by
    have hunder := FileTree.at?_under workspace.files place []
    rwa [List.append_nil] at hunder
  exact ⟨hfiles, hlocate, hlist, children_one_of_pagesBelow hpages _ _, hfiles.under hnames,
    ⟨hnames, _, hplace⟩, habsolute, hlistDeep, children_one_of_pagesBelow hpagesDeep _ _⟩

end Workspace

end WikiDirectives
