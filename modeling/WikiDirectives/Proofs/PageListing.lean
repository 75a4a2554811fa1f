import Mathlib.Data.List.Nodup
import WikiDirectives.Proofs.PagePaths

/-! The pages below a page stay in the directory of that page, and none of them is listed twice, as long
as no page of dots leads back to the directory above. -/
namespace WikiDirectives

/-! ## File trees -/

namespace FileTree

/-- A tree in which no directory has two entries of one name, and every name is one that a file can
have. -/
inductive WellFormed : FileTree → Prop
  | file (content : ByteArray) : WellFormed (.file content)
  | directory {entries : List (Text × FileTree)} (nodup : (entries.map (·.1)).Nodup)
      (names : ∀ entry ∈ entries, IsFileName entry.1)
      (below : ∀ entry ∈ entries, WellFormed entry.2) : WellFormed (.directory entries)

variable {entries : List (Text × FileTree)} {name : Text} {tree found : FileTree}

lemma child?_eq_some_iff (hnodup : (entries.map (·.1)).Nodup) :
    (directory entries).child? name = some tree ↔ (name, tree) ∈ entries := by
  rw [child?, Option.map_eq_some_iff]
  constructor
  · rintro ⟨⟨other, _⟩, hfind, rfl⟩
    have hname : other = name := by simpa using List.find?_some hfind
    exact hname ▸ List.mem_of_find?_eq_some hfind
  · intro hmem
    change ∃ entry, entries.find? _ = some entry ∧ entry.2 = tree
    induction entries with
    | nil => simp at hmem
    | cons entry rest ih =>
      rw [List.map_cons, List.nodup_cons] at hnodup
      rcases List.mem_cons.mp hmem with rfl | hmem
      · exact ⟨(name, tree), by simp, rfl⟩
      · have hother : entry.1 ≠ name := fun heq => hnodup.1 (heq ▸ List.mem_map_of_mem hmem)
        rw [List.find?_cons_of_neg (by simpa using hother)]
        exact ih hnodup.2 hmem

lemma WellFormed.names (h : (FileTree.directory entries).WellFormed) :
    (entries.map (·.1)).Nodup ∧ ∀ entry ∈ entries, IsFileName entry.1 := by
  cases h with
  | directory nodup names below => exact ⟨nodup, names⟩

lemma WellFormed.under {location : Location} (h : tree.WellFormed)
    (hnames : ∀ name ∈ location, IsFileName name) : (tree.under location).WellFormed := by
  induction location with
  | nil => exact h
  | cons name location ih =>
    obtain ⟨hname, hrest⟩ := List.forall_mem_cons.mp hnames
    refine .directory (List.nodup_singleton name) (List.forall_mem_singleton.mpr hname) ?_
    exact List.forall_mem_singleton.mpr (ih hrest)

theorem WellFormed.at? {location : Location} (h : tree.WellFormed)
    (hat : tree.at? location = some found) : found.WellFormed := by
  induction location generalizing tree with
  | nil =>
    obtain rfl := Option.some.inj hat
    exact h
  | cons name location ih =>
    rw [FileTree.at?] at hat
    split at hat
    · next child hchild =>
      cases h with
      | file content => simp [child?, FileTree.entries] at hchild
      | directory nodup names below =>
        exact ih (below (name, child) ((child?_eq_some_iff nodup).mp hchild)) hat
    · simp at hat

end FileTree

/-! ## Trees of pages -/

/-- A page with the pages that are listed below it, by their paths. -/
structure PageTree where
  path : Path
  children : List PageTree

namespace PageTree

mutual
/-- A page and those below it, each before those below it. -/
def nodes : PageTree → List PageTree
  | ⟨path, children⟩ => ⟨path, children⟩ :: allNodes children

def allNodes : List PageTree → List PageTree
  | [] => []
  | tree :: rest => tree.nodes ++ allNodes rest
end

mutual
/-- The article that stands for a page. -/
def article (workspace : Workspace) (root : Path) : PageTree → Article
  | ⟨path, children⟩ =>
    ⟨workspace.pageTitle path, PageFile.url root path, articles workspace root children⟩

def articles (workspace : Workspace) (root : Path) : List PageTree → List Article
  | [] => []
  | tree :: rest => tree.article workspace root :: articles workspace root rest
end

lemma nodes_eq (tree : PageTree) : tree.nodes = tree :: allNodes tree.children := by
  cases tree
  rfl

lemma mem_allNodes_iff {trees : List PageTree} {node : PageTree} :
    node ∈ allNodes trees ↔ ∃ tree ∈ trees, node = tree ∨ node ∈ allNodes tree.children := by
  induction trees with
  | nil => simp [allNodes]
  | cons tree rest ih => simp [allNodes, nodes_eq, ih, or_assoc]

end PageTree

namespace Workspace

/-- The pages below a page, down to a depth. -/
def treesBelow (workspace : Workspace) (page : Path) : ℕ → List PageTree
  | 0 => []
  | depth + 1 => (workspace.pagesBelow page).map fun child => ⟨child, workspace.treesBelow child depth⟩

theorem articles_treesBelow (workspace : Workspace) (root page : Path) (depth : ℕ) :
    PageTree.articles workspace root (workspace.treesBelow page depth) =
      workspace.articlesBelow root page depth := by
  induction depth generalizing page with
  | zero => rfl
  | succ depth ih =>
    rw [treesBelow, articlesBelow]
    induction workspace.pagesBelow page with
    | nil => rfl
    | cons child rest ihrest =>
      rw [List.map_cons, PageTree.articles, PageTree.article, ih, ihrest, List.map_cons]

/-! ## Pages in a directory -/

/-- A path leads to a page file in a directory. -/
structure PageAt (workspace : Workspace) (home : Location) (stem : Text) (path : Path) : Prop where
  stem_ne_nil : stem ≠ []
  located : workspace.locate path = .ok (home ++ [PageFile.pageName stem])
  file : ∃ content, workspace.files.at? (home ++ [PageFile.pageName stem]) = some (.file content)

variable {workspace : Workspace} {home : Location} {directory child page : Path}
  {entries : List (Text × FileTree)}

lemma exists_of_mem_pagesIn (hmem : child ∈ pagesIn directory entries) :
    ∃ stem tree, (PageFile.pageName stem, tree) ∈ entries ∧ tree.isFile = true ∧ stem ≠ [] ∧
      child = directory.join (PageFile.pageName stem) ∧ Text.byteLength child ≤ maxPathBytes := by
  obtain ⟨hpath, hshort⟩ := List.mem_filter.mp hmem
  obtain ⟨name, hname, rfl⟩ := List.mem_map.mp hpath
  obtain ⟨⟨_, tree⟩, hentry, rfl⟩ := List.mem_map.mp (List.mem_mergeSort.mp hname)
  obtain ⟨hentry, hpage⟩ := List.mem_filter.mp hentry
  obtain ⟨hfile, hpage⟩ : tree.isFile = true ∧ PageFile.isPageName _ = true := by simpa using hpage
  obtain ⟨stem, hstem, rfl⟩ := PageFile.isPageName_iff.mp hpage
  exact ⟨stem, tree, hentry, hfile, hstem, rfl, of_decide_eq_true hshort⟩

/-- The pages that are found in a directory lie there. -/
theorem pageAt_of_mem_pagesIn (hfiles : workspace.files.WellFormed) (hne : directory ≠ [])
    (hlast : directory.getLast? ≠ some '/') (hhome : workspace.locate directory = .ok home)
    (hentries : workspace.files.at? home = some (.directory entries))
    (hmem : child ∈ pagesIn directory entries) :
    ∃ stem, '/' ∉ stem ∧ child = directory ++ ['/'] ++ PageFile.pageName stem ∧
      workspace.PageAt home stem child := by
  obtain ⟨stem, tree, hentry, hfile, hstem, hchild, hshort⟩ := exists_of_mem_pagesIn hmem
  obtain ⟨nodup, names⟩ := (hfiles.at? hentries).names
  have hname := names _ hentry
  have hfound := (FileTree.child?_eq_some_iff nodup).mpr hentry
  rw [Path.join_name hne hlast hname.no_slash] at hchild
  refine ⟨stem, fun hslash => hname.no_slash (List.mem_append_left _ hslash), hchild, hstem, ?_, ?_⟩
  · rw [locate, if_neg (Nat.not_lt.mpr hshort), hchild,
      trace_append _ (Path.isFront_slash directory) hname.no_slash hname.ne_nil,
      enter_slash _ hne, trace_of_locate hhome]
    exact step_name hname hentries hfound
  · obtain ⟨content, rfl⟩ : ∃ content, tree = .file content := by
      cases tree with
      | file content => exact ⟨content, rfl⟩
      | directory entries => simp [FileTree.isFile] at hfile
    refine ⟨content, ?_⟩
    rw [FileTree.at?_append, hentries, Option.bind_some, FileTree.at?_singleton, hfound]

lemma nodup_pagesIn (hfiles : workspace.files.WellFormed) (hne : directory ≠ [])
    (hlast : directory.getLast? ≠ some '/')
    (hentries : workspace.files.at? home = some (.directory entries)) :
    (pagesIn directory entries).Nodup := by
  obtain ⟨nodup, names⟩ := (hfiles.at? hentries).names
  refine List.Nodup.filter _ (List.Nodup.map_on (fun a ha b hb hjoin => ?_) ?_)
  · obtain ⟨first, hfirst, rfl⟩ := List.mem_map.mp (List.mem_mergeSort.mp ha)
    obtain ⟨second, hsecond, rfl⟩ := List.mem_map.mp (List.mem_mergeSort.mp hb)
    rw [Path.join_name hne hlast (names first (List.mem_of_mem_filter hfirst)).no_slash,
      Path.join_name hne hlast (names second (List.mem_of_mem_filter hsecond)).no_slash] at hjoin
    exact List.append_cancel_left hjoin
  · exact (List.mergeSort_perm _ _).nodup_iff.mpr (nodup.sublist (List.filter_sublist.map _))

lemma pagesBelow_cases (workspace : Workspace) (page : Path) :
    workspace.pagesBelow page = [] ∨ ∃ home entries,
      workspace.locate page.dropExtension = .ok home ∧
        workspace.files.at? home = some (.directory entries) ∧
        workspace.pagesBelow page = pagesIn page.dropExtension entries := by
  unfold pagesBelow
  cases hlist : workspace.list page.dropExtension with
  | error error => exact .inl rfl
  | ok entries =>
    obtain ⟨home, hhome, hentries⟩ := exists_of_list hlist
    exact .inr ⟨home, entries, hhome, hentries, rfl⟩

/-! ## Listings that stay inside -/

/-- Trees of pages in a directory: each page is a file there, no two are the same, and the pages below
it lie in the directory of its name. -/
inductive Inside (workspace : Workspace) : Location → List PageTree → Prop
  | nil (home : Location) : Inside workspace home []
  | cons {home : Location} {stem : Text} {path : Path} {children rest : List PageTree}
      (page : workspace.PageAt home stem path)
      (new : ∀ tree ∈ rest, workspace.locate tree.path ≠ workspace.locate path)
      (below : Inside workspace (home ++ [stem]) children)
      (others : Inside workspace home rest) : Inside workspace home (⟨path, children⟩ :: rest)

theorem inside_map (front : Text) {trees : Path → List PageTree} {children : List Path}
    (hnodup : children.Nodup)
    (hpages : ∀ child ∈ children, ∃ stem, child = front ++ PageFile.pageName stem ∧
      workspace.PageAt home stem child ∧ workspace.Inside (home ++ [stem]) (trees child)) :
    workspace.Inside home (children.map fun child => ⟨child, trees child⟩) := by
  induction children with
  | nil => exact .nil home
  | cons child rest ih =>
    obtain ⟨hnew, hrest⟩ := List.nodup_cons.mp hnodup
    obtain ⟨stem, hchild, hpage, hbelow⟩ := hpages child List.mem_cons_self
    refine .cons hpage (fun tree htree heq => ?_) hbelow
      (ih hrest fun other hother => hpages other (List.mem_cons_of_mem _ hother))
    obtain ⟨other, hother, rfl⟩ := List.mem_map.mp htree
    obtain ⟨stem', hchild', hpage', -⟩ := hpages other (List.mem_cons_of_mem _ hother)
    -- Two pages at one place have one name, and so one path.
    have hname : stem' = stem := by
      rw [hpage'.located, hpage.located] at heq
      simpa [PageFile.pageName_injective.eq_iff] using heq
    exact hnew (hchild.trans (hname ▸ hchild'.symm) ▸ hother)

variable {front stem : Text}

/-- The directory of a page whose name is not made of dots lies beside the page. -/
lemma home_eq (hfront : Path.IsFront front) (hslash : '/' ∉ stem)
    (hdots : ¬ PageFile.IsDots (front ++ PageFile.pageName stem)) {here : Location}
    (henter : workspace.enter front = .ok here)
    (h : workspace.locate (Path.dropExtension (front ++ PageFile.pageName stem)) = .ok home) :
    home = here ++ [PageFile.directoryName stem] := by
  rw [PageFile.isDots_iff hfront hslash, ← PageFile.directoryName_eq_up_iff] at hdots
  have htrace := trace_of_locate h
  rw [PageFile.dropExtension_page hfront hslash, trace_append _ hfront
    (PageFile.slash_not_mem_directoryName hslash) (PageFile.directoryName_ne_nil stem),
    henter] at htrace
  exact eq_append_of_step htrace (PageFile.isVoid_directoryName stem) hdots

lemma treesBelow_of_error {error : FileError}
    (h : workspace.locate page.dropExtension = .error error) (depth : ℕ) :
    workspace.treesBelow page depth = [] := by
  have hpages : workspace.pagesBelow page = [] := by simp [pagesBelow, list, node, h]
  cases depth with
  | zero => rfl
  | succ depth => rw [treesBelow, hpages, List.map_nil]

/-- What is listed below a page in a directory lies beside the page, unless the name of the page is made
of dots. -/
lemma inside_child (hslash : '/' ∉ stem) (hne : directory ≠ [])
    (hhome : workspace.locate directory = .ok home) (hstem : stem ≠ []) {depth : ℕ}
    (hdots : PageFile.IsDots (directory ++ ['/'] ++ PageFile.pageName stem) →
      workspace.treesBelow (directory ++ ['/'] ++ PageFile.pageName stem) depth = [])
    (hinside : ∀ below, workspace.locate
        (Path.dropExtension (directory ++ ['/'] ++ PageFile.pageName stem)) = .ok below →
      workspace.Inside below
        (workspace.treesBelow (directory ++ ['/'] ++ PageFile.pageName stem) depth)) :
    workspace.Inside (home ++ [stem])
      (workspace.treesBelow (directory ++ ['/'] ++ PageFile.pageName stem) depth) := by
  by_cases hdotted : PageFile.IsDots (directory ++ ['/'] ++ PageFile.pageName stem)
  · rw [hdots hdotted]
    exact .nil _
  · cases hbelow : workspace.locate
        (Path.dropExtension (directory ++ ['/'] ++ PageFile.pageName stem)) with
    | error error =>
      rw [treesBelow_of_error hbelow]
      exact .nil _
    | ok below =>
      have henter : workspace.enter (directory ++ ['/']) = .ok home :=
        (enter_slash workspace hne).trans (trace_of_locate hhome)
      have hbeside := home_eq (Path.isFront_slash directory) hslash hdotted henter hbelow
      rw [PageFile.isDots_iff (Path.isFront_slash directory) hslash, not_or] at hdotted
      rw [PageFile.directoryName, if_neg hstem, if_neg hdotted.1] at hbeside
      exact hbeside ▸ hinside below hbelow

theorem inside_treesBelow (hfiles : workspace.files.WellFormed) (hfront : Path.IsFront front)
    (hslash : '/' ∉ stem) {depth : ℕ}
    (hhome : workspace.locate (Path.dropExtension (front ++ PageFile.pageName stem)) = .ok home)
    (hdots : ∀ node ∈ PageTree.allNodes
      (workspace.treesBelow (front ++ PageFile.pageName stem) depth),
      PageFile.IsDots node.path → node.children = []) :
    workspace.Inside home (workspace.treesBelow (front ++ PageFile.pageName stem) depth) := by
  induction depth generalizing front stem home with
  | zero => exact .nil home
  | succ depth ih =>
    obtain ⟨hne, hlast⟩ := PageFile.dropExtension_plain hfront hslash
    rw [treesBelow] at hdots ⊢
    rcases workspace.pagesBelow_cases (front ++ PageFile.pageName stem) with
      hnone | ⟨_, entries, hlocate, hentries, hpages⟩
    · rw [hnone]
      exact .nil home
    · obtain rfl := Except.ok.inj (hhome.symm.trans hlocate)
      rw [hpages] at hdots ⊢
      set directory := Path.dropExtension (front ++ PageFile.pageName stem)
      -- Each child is again a page behind a slash, with a directory of its own to go on with.
      refine inside_map (directory ++ ['/']) (nodup_pagesIn hfiles hne hlast hentries)
        fun child hchild => ?_
      obtain ⟨stem', hslash', rfl, hpage⟩ :=
        pageAt_of_mem_pagesIn hfiles hne hlast hhome hentries hchild
      refine ⟨stem', rfl, hpage, ?_⟩
      refine inside_child hslash' hne hhome hpage.stem_ne_nil (fun hdotted => ?_) fun _ hbelow => ?_
      · exact hdots _ (PageTree.mem_allNodes_iff.mpr ⟨_, List.mem_map_of_mem hchild, .inl rfl⟩) hdotted
      · refine ih (Path.isFront_slash directory) hslash' hbelow fun node hnode => hdots node ?_
        exact PageTree.mem_allNodes_iff.mpr ⟨_, List.mem_map_of_mem hchild, .inr hnode⟩

/-- Every page of such a listing is a page file somewhere in the directory, and the pages below it lie
in the directory of its name. -/
theorem Inside.of_mem {trees : List PageTree} {tree : PageTree} (h : workspace.Inside home trees)
    (hmem : tree ∈ PageTree.allNodes trees) :
    ∃ within stem, workspace.PageAt (home ++ within) stem tree.path ∧
      workspace.Inside (home ++ within ++ [stem]) tree.children := by
  induction h with
  | nil home => simp [PageTree.allNodes] at hmem
  | @cons home stem path children rest page new below others ihbelow ihothers =>
    simp only [PageTree.allNodes, PageTree.nodes, List.cons_append, List.mem_cons,
      List.mem_append] at hmem
    rcases hmem with rfl | hmem | hmem
    · exact ⟨[], stem, by simpa using page, by simpa using below⟩
    · obtain ⟨within, stem', hpage, hinside⟩ := ihbelow hmem
      exact ⟨stem :: within, stem', by simpa using hpage, by simpa using hinside⟩
    · exact ihothers hmem

lemma Inside.pageAt {trees : List PageTree} {tree : PageTree} (h : workspace.Inside home trees)
    (hmem : tree ∈ trees) : ∃ stem, workspace.PageAt home stem tree.path := by
  induction h with
  | nil home => simp at hmem
  | cons page new below others _ ihothers =>
    rcases List.mem_cons.mp hmem with rfl | hmem
    · exact ⟨_, page⟩
    · exact ihothers hmem

/-! ## No page twice -/

lemma Inside.locate_ne {trees : List PageTree} {tree : PageTree} {path : Path}
    (h : workspace.Inside (home ++ [stem]) trees) (hmem : tree ∈ PageTree.allNodes trees)
    (hpage : workspace.PageAt home stem path) :
    workspace.locate tree.path ≠ workspace.locate path := by
  obtain ⟨within, stem', hpage', -⟩ := h.of_mem hmem
  rw [hpage'.located, hpage.located]
  simp

/-- The places of a page in a directory and of the pages in the directory of its name. -/
def Owned (home : Location) (stem : Text) (location : Location) : Prop :=
  location = home ++ [PageFile.pageName stem] ∨ ∃ more ≠ [], location = home ++ stem :: more

lemma Owned.unique {stem' : Text} {location : Location} (h : Owned home stem location)
    (h' : Owned home stem' location) : stem = stem' := by
  rcases h with rfl | ⟨more, hmore, rfl⟩ <;> rcases h' with h' | ⟨more', hmore', h'⟩
  · simpa [PageFile.pageName_injective.eq_iff] using h'
  · simp [Ne.symm hmore'] at h'
  · simp [hmore] at h'
  · rw [List.append_cancel_left_eq, List.cons.injEq] at h'
    exact h'.1

lemma Inside.owned_below {trees : List PageTree} {tree : PageTree}
    (h : workspace.Inside (home ++ [stem]) trees) (hmem : tree ∈ PageTree.allNodes trees) :
    ∃ location, workspace.locate tree.path = .ok location ∧ Owned home stem location := by
  obtain ⟨within, stem', hpage, -⟩ := h.of_mem hmem
  exact ⟨_, hpage.located, .inr ⟨within ++ [PageFile.pageName stem'], by simp, by simp⟩⟩

lemma Inside.owned {trees : List PageTree} {tree : PageTree} (h : workspace.Inside home trees)
    (hmem : tree ∈ PageTree.allNodes trees) :
    ∃ top ∈ trees, ∃ stem location, workspace.PageAt home stem top.path ∧
      workspace.locate tree.path = .ok location ∧ Owned home stem location := by
  induction h with
  | nil home => simp [PageTree.allNodes] at hmem
  | @cons home stem path children rest page new below others _ ihothers =>
    simp only [PageTree.allNodes, PageTree.nodes, List.cons_append, List.mem_cons,
      List.mem_append] at hmem
    rcases hmem with rfl | hmem | hmem
    · exact ⟨_, List.mem_cons_self, stem, _, page, page.located, .inl rfl⟩
    · obtain ⟨location, hlocation, howned⟩ := below.owned_below hmem
      exact ⟨_, List.mem_cons_self, stem, location, page, hlocation, howned⟩
    · obtain ⟨top, htop, hrest⟩ := ihothers hmem
      exact ⟨top, List.mem_cons_of_mem _ htop, hrest⟩

theorem Inside.nodup {trees : List PageTree} (h : workspace.Inside home trees) :
    ((PageTree.allNodes trees).map fun tree => workspace.locate tree.path).Nodup := by
  induction h with
  | nil home => simp [PageTree.allNodes]
  | @cons home stem path children rest page new below others ihbelow ihothers =>
    -- No other page of the directory owns a place of this one.
    have hrest : ∀ tree ∈ PageTree.allNodes rest, ∀ location, Owned home stem location →
        workspace.locate tree.path ≠ .ok location := by
      intro tree htree location howned heq
      obtain ⟨top, htop, stem', location', hpage, hlocation, howned'⟩ := others.owned htree
      obtain rfl := Except.ok.inj (hlocation.symm.trans heq)
      obtain rfl := howned.unique howned'
      exact new top htop (hpage.located.trans page.located.symm)
    simp only [PageTree.allNodes, PageTree.nodes, List.cons_append, List.map_cons, List.map_append,
      List.nodup_cons, List.nodup_append, List.mem_append, List.mem_map]
    refine ⟨?_, ihbelow, ihothers, ?_⟩
    · rintro (⟨tree, htree, heq⟩ | ⟨tree, htree, heq⟩)
      · exact below.locate_ne htree page heq
      · exact hrest tree htree _ (.inl rfl) (heq.trans page.located)
    · rintro _ ⟨tree, htree, rfl⟩ _ ⟨other, hother, rfl⟩ heq
      obtain ⟨location, hlocation, howned⟩ := below.owned_below htree
      exact hrest other hother location howned (heq.symm.trans hlocation)

/-! ## The listing of a page -/

lemma enter_of_trace {location : Location} (hfront : Path.IsFront front) (hslash : '/' ∉ stem)
    (h : workspace.trace (front ++ PageFile.pageName stem) = .ok location) :
    ∃ here, workspace.enter front = .ok here ∧ location = here ++ [PageFile.pageName stem] ∧
      step workspace.files here (PageFile.pageName stem) = .ok location := by
  rw [trace_append _ hfront (PageFile.slash_not_mem_pageName hslash)
    (by simp [PageFile.pageName])] at h
  cases henter : workspace.enter front with
  | error error => simp [henter, Except.bind] at h
  | ok here =>
    rw [henter] at h
    have hname := eq_append_of_step h (PageFile.isVoid_pageName stem) (PageFile.pageName_ne_up stem)
    exact ⟨here, rfl, hname, h⟩

/-- A page of dots lists the directory above the one that it lies in. -/
theorem trace_dropExtension_of_isDots {location : Location} (hfront : Path.IsFront front)
    (hslash : '/' ∉ stem) (hdots : PageFile.IsDots (front ++ PageFile.pageName stem))
    (h : workspace.trace (front ++ PageFile.pageName stem) = .ok location) :
    workspace.trace (Path.dropExtension (front ++ PageFile.pageName stem)) =
      .ok location.dropLast.dropLast := by
  obtain ⟨here, henter, rfl, hstep⟩ := enter_of_trace hfront hslash h
  rw [PageFile.isDots_iff hfront hslash, ← PageFile.directoryName_eq_up_iff] at hdots
  rw [PageFile.dropExtension_page hfront hslash, hdots,
    trace_append _ hfront (by decide) (by decide), henter, List.dropLast_concat]
  exact step_up hstep

/-- Nothing that is listed below a page lies where the page lies, as its directory is beside it. -/
theorem Inside.locate_ne_trace {trees : List PageTree} {tree : PageTree} (hfront : Path.IsFront front)
    (hslash : '/' ∉ stem) (hdots : ¬ PageFile.IsDots (front ++ PageFile.pageName stem))
    (hhome : workspace.locate (Path.dropExtension (front ++ PageFile.pageName stem)) = .ok home)
    (h : workspace.Inside home trees) (hmem : tree ∈ PageTree.allNodes trees) :
    workspace.locate tree.path ≠ workspace.trace (front ++ PageFile.pageName stem) := by
  intro heq
  obtain ⟨within, stem', hpage, -⟩ := h.of_mem hmem
  obtain ⟨here, henter, hplace, -⟩ := enter_of_trace hfront hslash (heq.symm.trans hpage.located)
  rw [home_eq hfront hslash hdots henter hhome] at hplace
  simp at hplace

/-- The pages below a page. The articles of a document stand for trees of pages. A page whose name is
made of dots lists the directory above its own. If no such page lists anything, then each page of the
listing is a page file in the directory that is called like the page at the top without its extension,
and the pages below it lie in the directory that is called like it; so no page is listed below itself,
the page at the top is not listed, and no two places in the listing are the same file. -/
theorem document_children_inside {workspace : Workspace} (hfiles : workspace.files.WellFormed)
    (root base : Path) (content : Text) (depth : ℕ) :
    let page := PageFile.pageName base
    let trees := workspace.treesBelow page depth
    let nodes := PageTree.allNodes trees
    (workspace.document root page content).children depth =
        PageTree.articles workspace root trees ∧
      (¬ PageFile.IsDots page → Path.dropExtension page =
        if Path.fileName? page = some (PageFile.pageName []) then page else base) ∧
      (PageFile.IsDots page → ∀ location, workspace.trace page = .ok location →
        workspace.trace (Path.dropExtension page) = .ok location.dropLast.dropLast) ∧
      ((∀ node ∈ nodes, PageFile.IsDots node.path → node.children = []) →
        (∀ node ∈ nodes, ∃ home within stem,
          workspace.locate (Path.dropExtension page) = .ok home ∧
          workspace.PageAt (home ++ within) stem node.path ∧
          ∀ child ∈ node.children, ∃ stem',
            workspace.PageAt (home ++ within ++ [stem]) stem' child.path) ∧
        (∀ node ∈ nodes, ∀ other ∈ PageTree.allNodes node.children,
          workspace.locate other.path ≠ workspace.locate node.path) ∧
        (¬ PageFile.IsDots page → ∀ node ∈ nodes, workspace.locate node.path ≠ workspace.trace page) ∧
        (nodes.map fun node => workspace.locate node.path).Nodup) := by
  intro page trees nodes
  obtain ⟨front, stem, rfl, hfront, hslash⟩ := Path.exists_front base
  have hpage : page = front ++ PageFile.pageName stem := List.append_assoc ..
  clear_value page
  subst hpage
  refine ⟨(articles_treesBelow ..).symm, fun hdots => ?_,
    fun hdots _ => trace_dropExtension_of_isDots hfront hslash hdots, fun hdots => ?_⟩
  · rw [PageFile.isDots_iff hfront hslash, not_or] at hdots
    rw [PageFile.dropExtension_page hfront hslash, PageFile.fileName?_page hfront hslash]
    by_cases hstem : stem = []
    · simp [hstem, PageFile.directoryName]
    · simp [hstem, hdots.1, PageFile.directoryName, PageFile.pageName_injective.eq_iff]
  · cases hhome : workspace.locate (Path.dropExtension (front ++ PageFile.pageName stem)) with
    | error error =>
      have hnodes : nodes = [] := congrArg PageTree.allNodes (treesBelow_of_error hhome depth)
      simp [hnodes]
    | ok home =>
      have hinside : workspace.Inside home trees := inside_treesBelow hfiles hfront hslash hhome hdots
      refine ⟨fun node hnode => ?_, fun node hnode other hother => ?_, fun htop node hnode => ?_,
        hinside.nodup⟩
      · obtain ⟨within, stem', hnodePage, hbelow⟩ := hinside.of_mem hnode
        exact ⟨home, within, stem', rfl, hnodePage, fun child hchild => hbelow.pageAt hchild⟩
      · obtain ⟨within, stem', hnodePage, hbelow⟩ := hinside.of_mem hnode
        exact hbelow.locate_ne hother hnodePage
      · exact hinside.locate_ne_trace hfront hslash htop hhome hnode

/-- A guide page and its directory. -/
def guideWiki (below : List (Text × FileTree)) : Workspace where
  files := .directory [("guide.md".toList, .file .empty), ("guide".toList, .directory below)]
  current := []
  environment := .empty

lemma wellFormed_guideWiki {below : List (Text × FileTree)}
    (h : (FileTree.directory below).WellFormed) : (guideWiki below).files.WellFormed := by
  have hnames : ["guide.md".toList, "guide".toList].Nodup := by decide
  refine .directory hnames (by simpa using (by decide)) ?_
  simpa using ⟨.file _, h⟩

/-- A page below the guide that has two pages below it, one of them named by dots: at the end of the
listing this name does no harm. -/
theorem document_children_inside_install :
    let workspace := guideWiki [("install.md".toList, .file .empty), ("install".toList,
      .directory [("linux.md".toList, .file .empty), ("...md".toList, .file .empty)])]
    let page := PageFile.pageName "/guide".toList
    let nodes := PageTree.allNodes (workspace.treesBelow page 2)
    workspace.files.WellFormed ∧
      nodes.map (·.path) = ["/guide/install.md".toList, "/guide/install/...md".toList,
        "/guide/install/linux.md".toList] ∧
      (∀ node ∈ nodes, PageFile.IsDots node.path → node.children = []) ∧
      (∀ node ∈ nodes, workspace.locate node.path ≠ workspace.trace page) ∧
      (nodes.map fun node => workspace.locate node.path).Nodup := by
  intro workspace page nodes
  have hfiles : workspace.files.WellFormed := by
    refine wellFormed_guideWiki (.directory (by decide) (by simpa using (by decide)) ?_)
    refine List.forall_mem_cons.mpr ⟨.file _, List.forall_mem_singleton.mpr ?_⟩
    refine .directory (by decide) (by simpa using (by decide)) ?_
    simpa using .file _
  have hguide : workspace.pagesBelow page = ["/guide/install.md".toList] := by decide +kernel
  have hinstall : workspace.pagesBelow "/guide/install.md".toList =
      ["/guide/install/...md".toList, "/guide/install/linux.md".toList] := by
    have hlist : workspace.list (Path.dropExtension "/guide/install.md".toList) =
        .ok [("linux.md".toList, .file .empty), ("...md".toList, .file .empty)] := rfl
    have hsorted : ["linux.md".toList, "...md".toList].mergeSort (fun a b => !Text.before b a) =
        ["...md".toList, "linux.md".toList] := by simp [List.mergeSort, Text.before]
    rw [pagesBelow, hlist]
    show ((["linux.md".toList, "...md".toList].mergeSort _).map _).filter _ = _
    rw [hsorted]
    decide +kernel
  have htrees : workspace.treesBelow page 2 = [⟨"/guide/install.md".toList,
      [⟨"/guide/install/...md".toList, []⟩, ⟨"/guide/install/linux.md".toList, []⟩]⟩] := by
    simp only [treesBelow, hguide, hinstall, List.map_cons, List.map_nil]
  have hdots : ∀ node ∈ nodes, PageFile.IsDots node.path → node.children = [] := by
    simp only [nodes, htrees]
    decide +kernel
  obtain ⟨-, -, hnew, hnodup⟩ :=
    (document_children_inside hfiles [] "/guide".toList [] 2).2.2.2 hdots
  refine ⟨hfiles, ?_, hdots, hnew (by decide +kernel), hnodup⟩
  simp only [nodes, htrees]
  rfl

/-- A page of dots in the directory of a page leads back to that page, and from there to itself. -/
theorem document_children_dots :
    let workspace := guideWiki [("...md".toList, .file .empty)]
    let page := PageFile.pageName "/guide".toList
    let nodes := PageTree.allNodes (workspace.treesBelow page 3)
    workspace.files.WellFormed ∧ workspace.trace page = .ok ["guide.md".toList] ∧
      nodes.map (fun node => workspace.locate node.path) =
        [.ok ["guide".toList, "...md".toList], .ok ["guide.md".toList],
          .ok ["guide".toList, "...md".toList]] := by
  refine ⟨wellFormed_guideWiki (.directory (by decide) (by simpa using (by decide)) ?_),
    by decide +kernel, by decide +kernel⟩
  simpa using .file _

end Workspace

end WikiDirectives
