import Mathlib.Data.List.Basic
import WikiDirectives.Files.Workspace
import WikiDirectives.Proofs.Characters

/-! Paths from a location: the absolute path of a location, with a path joined to it, is walked like
the joined path from that location, and it has the same absolute path as long as there is room for it. -/
namespace WikiDirectives

namespace Text
variable {separator : Char} {names : List Text}

lemma joined_cons_cons (separator s t : Text) (rest : List Text) :
    joined separator (s :: t :: rest) = s ++ separator ++ joined separator (t :: rest) := rfl

/-- Joined names are the pieces again. -/
theorem pieces_joined (hne : names ≠ []) (h : ∀ name ∈ names, separator ∉ name) :
    pieces separator (joined [separator] names) = names := by
  induction names with
  | nil => exact absurd rfl hne
  | cons name names ih =>
    have hname := h name List.mem_cons_self
    cases names with
    | nil => exact pieces_of_not_mem hname
    | cons next names =>
      have hrest := ih (by simp) fun other hother => h other (List.mem_cons_of_mem _ hother)
      rw [joined_cons_cons, List.append_assoc, List.singleton_append, pieces_append hname, hrest]

lemma joined_ne_nil {name : Text} (separator : Text) (rest : List Text) (hname : name ≠ []) :
    joined separator (name :: rest) ≠ [] := by
  cases rest with
  | nil => exact hname
  | cons next rest => simp [joined_cons_cons, hname]

lemma getLast?_joined_ne (h : ∀ name ∈ names, name ≠ [] ∧ separator ∉ name) :
    (joined [separator] names).getLast? ≠ some separator := by
  induction names with
  | nil => simp [joined]
  | cons name names ih =>
    cases names with
    | nil => exact fun hlast => (h name List.mem_cons_self).2 (List.mem_of_getLast? hlast)
    | cons next names =>
      have hnext := joined_ne_nil [separator] names (h next (by simp)).1
      rw [joined_cons_cons, List.getLast?_append_of_ne_nil _ hnext]
      exact ih fun other hother => h other (List.mem_cons_of_mem _ hother)

lemma joined_append_singleton (separator name : Text) (hne : names ≠ []) :
    joined separator (names ++ [name]) = joined separator names ++ separator ++ name := by
  induction names with
  | nil => exact absurd rfl hne
  | cons first names ih =>
    cases names with
    | nil => rfl
    | cons second names =>
      have hrest := ih (by simp)
      rw [List.cons_append] at hrest
      simp [joined_cons_cons, hrest]

lemma byteLength_eq_sum (s : Text) : byteLength s = (s.map Char.utf8Size).sum := by
  rw [byteLength, List.sum_eq_foldl, List.foldl_map]

lemma byteLength_cons (c : Char) (s : Text) : byteLength (c :: s) = c.utf8Size + byteLength s := by
  simp only [byteLength_eq_sum, List.map_cons, List.sum_cons]

lemma byteLength_append (s t : Text) : byteLength (s ++ t) = byteLength s + byteLength t := by
  simp only [byteLength_eq_sum, List.map_append, List.sum_append]

end Text

/-- A name that a file can have: a component of its own, and not too long. -/
structure IsFileName (name : Text) : Prop where
  not_void : Path.isVoid name = false
  ne_up : name ≠ ['.', '.']
  no_slash : '/' ∉ name
  short : Text.byteLength name ≤ maxNameBytes

instance (name : Text) : Decidable (IsFileName name) :=
  decidable_of_iff
    (Path.isVoid name = false ∧ name ≠ ['.', '.'] ∧ '/' ∉ name ∧ Text.byteLength name ≤ maxNameBytes)
    ⟨fun ⟨hvoid, hup, hslash, hshort⟩ => ⟨hvoid, hup, hslash, hshort⟩,
      fun ⟨hvoid, hup, hslash, hshort⟩ => ⟨hvoid, hup, hslash, hshort⟩⟩

lemma IsFileName.ne_nil {name : Text} (h : IsFileName name) : name ≠ [] := by
  rintro rfl
  exact absurd h.not_void (by decide)

/-! ## Paths of locations -/

namespace Location
variable {location : Location} {name : Text}

lemma path_cons (name : Text) (hne : location ≠ []) :
    path (name :: location) = '/' :: name ++ location.path := by
  obtain ⟨next, rest, rfl⟩ := List.exists_cons_of_ne_nil hne
  simp [path, Text.joined_cons_cons]

lemma path_concat (hne : location ≠ []) (name : Text) :
    path (location ++ [name]) = location.path ++ ['/'] ++ name := by
  rw [path, path, Text.joined_append_singleton _ _ hne]
  simp

/-- Each name takes its bytes and a slash. -/
theorem byteLength_path (hne : location ≠ []) :
    Text.byteLength location.path = (location.map fun name => Text.byteLength name + 1).sum := by
  have hname (name : Text) : Text.byteLength ('/' :: name) = Text.byteLength name + 1 :=
    (Text.byteLength_cons '/' name).trans (Nat.add_comm 1 _)
  induction location with
  | nil => exact absurd rfl hne
  | cons name location ih =>
    by_cases hlast : location = []
    · subst hlast
      exact hname name
    · rw [path_cons name hlast, Text.byteLength_append, hname, ih hlast, List.map_cons, List.sum_cons]

lemma byteLength_path_append (hne : location ≠ []) (back : Location) :
    Text.byteLength (location ++ back).path =
      Text.byteLength location.path + (back.map fun name => Text.byteLength name + 1).sum := by
  rw [byteLength_path hne, byteLength_path (by simp [hne]), List.map_append, List.sum_append]

/-- A place further down has a longer path. -/
lemma byteLength_path_le (front back : Location) :
    Text.byteLength front.path ≤ Text.byteLength (front ++ back).path := by
  by_cases hroot : front = []
  · subst hroot
    rw [List.nil_append, path, path, Text.byteLength_cons, Text.byteLength_cons]
    exact Nat.add_le_add_left (Nat.zero_le _) _
  · rw [byteLength_path_append hroot]
    exact Nat.le_add_right _ _

/-- A place so many directories deep, each with a name of so many bytes. -/
def deep (count bytes : ℕ) : Location := List.replicate count (List.replicate bytes 'd')

lemma deep_ne_nil {count : ℕ} (hcount : count ≠ 0) (bytes : ℕ) : deep count bytes ≠ [] := by
  simpa [deep] using hcount

lemma byteLength_deep {count : ℕ} (hcount : count ≠ 0) (bytes : ℕ) :
    Text.byteLength (deep count bytes).path = count * (bytes + 1) := by
  have hletter : 'd'.utf8Size = 1 := rfl
  rw [byteLength_path (deep_ne_nil hcount bytes)]
  simp [deep, Text.byteLength_eq_sum, hletter]

lemma isFileName_deep {count bytes : ℕ} (hpos : bytes ≠ 0) (hshort : bytes ≤ maxNameBytes) :
    ∀ name ∈ deep count bytes, IsFileName name := by
  intro name hname
  obtain rfl : name = List.replicate bytes 'd' := List.eq_of_mem_replicate hname
  have hletter : ∀ c ∈ List.replicate bytes 'd', c = 'd' := fun c hc => List.eq_of_mem_replicate hc
  refine ⟨?_, fun hup => ?_, fun hslash => absurd (hletter _ hslash) (by decide), ?_⟩
  · cases bytes with
    | zero => exact absurd rfl hpos
    | succ bytes => simp [Path.isVoid, List.replicate_succ]
  · exact absurd (hletter '.' (by simp [hup])) (by decide)
  · simpa [Text.byteLength_eq_sum, show 'd'.utf8Size = 1 from rfl] using hshort

/-- Only the path of the root ends with a slash. -/
lemma getLast?_path (hnames : ∀ name ∈ location, IsFileName name) (hne : location ≠ []) :
    location.path.getLast? ≠ some '/' := by
  have hjoined : Text.joined ['/'] location ≠ [] := by
    obtain ⟨first, rest, rfl⟩ := List.exists_cons_of_ne_nil hne
    exact Text.joined_ne_nil _ rest (hnames first List.mem_cons_self).ne_nil
  rw [path, List.getLast?_cons_of_ne_nil hjoined]
  exact Text.getLast?_joined_ne fun name hname =>
    ⟨(hnames name hname).ne_nil, (hnames name hname).no_slash⟩

end Location

namespace Path
variable {location : Location} {path : Path} {name : Text}

lemma join_path_of_absolute (location : Location) (h : path.isAbsolute = true) :
    join location.path path = path := by
  simp [join, h]

/-- From a location, a path is taken behind the names of the location. -/
theorem exists_join_path (hnames : ∀ name ∈ location, IsFileName name)
    (hpath : path.isAbsolute = false) :
    ∃ body, join location.path path = '/' :: body ∧
      Text.pieces '/' body = location ++ Text.pieces '/' path := by
  by_cases hempty : location = []
  · subst hempty
    exact ⟨path, by simp [join, hpath, Location.path, Text.joined], rfl⟩
  · have hpieces : Text.pieces '/' (Text.joined ['/'] location) = location :=
      Text.pieces_joined hempty fun name hname => (hnames name hname).no_slash
    refine ⟨Text.joined ['/'] location ++ '/' :: path, ?_, ?_⟩
    · rw [join, hpath, if_neg (by simp [Location.path]), if_neg (Location.getLast?_path hnames hempty)]
      rfl
    · rw [Text.pieces_append_separator, hpieces]

lemma isAbsolute_join_path (location : Location) (path : Path) :
    (join location.path path).isAbsolute = true := by
  unfold join
  split_ifs with h
  · simpa [Location.path] using h
  · rfl
  · rfl

lemma dropVoids_append_singleton (pieces : List Text) (h : isVoid name = false) :
    dropVoids (pieces ++ [name]) = pieces ++ [name] := by
  simp [dropVoids, h]

lemma dropVoids_names (h : ∀ name ∈ location, IsFileName name) : dropVoids location = location := by
  rcases List.eq_nil_or_concat' location with rfl | ⟨front, name, rfl⟩
  · rfl
  · exact dropVoids_append_singleton front (h name (by simp)).not_void

lemma isAbsolute_fileName (h : IsFileName name) : isAbsolute name = false := by
  rw [isAbsolute, decide_eq_false_iff_not]
  exact fun hhead => h.no_slash (List.mem_of_head? hhead)

/-- A name joined to the path of a location gives the path of the place below it. -/
theorem join_path_fileName (hnames : ∀ name ∈ location, IsFileName name) (hname : IsFileName name) :
    join location.path name = Location.path (location ++ [name]) := by
  have hrelative := isAbsolute_fileName hname
  by_cases hempty : location = []
  · subst hempty
    simp [join, hrelative, Location.path, Text.joined]
  · rw [join, hrelative, if_neg (by simp [Location.path]), if_neg (Location.getLast?_path hnames hempty),
      Location.path_concat hempty, List.append_assoc]
    rfl

/-- The parent of a file at a location is the location. -/
theorem parent?_join_path (hnames : ∀ name ∈ location, IsFileName name) (hname : IsFileName name) :
    parent? (join location.path name) = some location.path := by
  obtain ⟨body, hjoin, hbody⟩ := exists_join_path hnames (isAbsolute_fileName hname)
  rw [Text.pieces_of_not_mem hname.no_slash] at hbody
  have hpieces : pieces (join location.path name) = location ++ [name] := by
    rw [pieces, hjoin]
    exact (congrArg dropVoids hbody).trans (dropVoids_append_singleton location hname.not_void)
  have hopening : (join location.path name).opening.1 = ['/'] := by
    rw [hjoin]
    rfl
  simp only [parent?, hpieces, hopening, List.dropLast_concat, dropVoids_names hnames]
  simp [Location.path]

end Path

/-! ## Walking -/

theorem FileTree.at?_append (tree : FileTree) (front back : Location) :
    tree.at? (front ++ back) = (tree.at? front).bind (·.at? back) := by
  induction front generalizing tree with
  | nil => rfl
  | cons name front ih =>
    rw [List.cons_append, FileTree.at?, FileTree.at?]
    cases tree.child? name with
    | none => rfl
    | some child => exact ih child

lemma FileTree.at?_singleton (tree : FileTree) (name : Text) : tree.at? [name] = tree.child? name := by
  rw [FileTree.at?]
  cases tree.child? name <;> rfl

/-- A tree at a place, with nothing beside the way to it. -/
def FileTree.under (tree : FileTree) : Location → FileTree
  | [] => tree
  | name :: location => .directory [(name, tree.under location)]

lemma FileTree.at?_under (tree : FileTree) (location back : Location) :
    (tree.under location).at? (location ++ back) = tree.at? back := by
  induction location with
  | nil => rfl
  | cons name location ih => simpa [under, FileTree.at?, child?, entries] using ih

lemma FileTree.at?_under_of_not_mem (tree : FileTree) {front location : Location} {name : Text}
    (habove : front <+: location) (hne : front ≠ location) (hname : name ∉ location) :
    (tree.under location).at? (front ++ [name]) = none := by
  induction front generalizing location with
  | nil =>
    obtain ⟨first, rest, rfl⟩ := List.exists_cons_of_ne_nil hne.symm
    have hfirst : first ≠ name := fun h => hname (h ▸ List.mem_cons_self)
    simp [under, FileTree.at?, child?, entries, hfirst]
  | cons first front ih =>
    obtain ⟨back, rfl⟩ := habove
    have hbelow := ih (List.prefix_append front back) (fun h => hne (congrArg (first :: ·) h))
      fun hmem => hname (List.mem_cons_of_mem first hmem)
    simpa [under, FileTree.at?, child?, entries] using hbelow

/-- Only a directory has children. -/
lemma FileTree.eq_directory_of_child? {tree child : FileTree} {name : Text}
    (h : tree.child? name = some child) : tree = .directory tree.entries := by
  cases tree with
  | file content => simp [child?, entries] at h
  | directory entries => rfl

namespace Workspace
variable {files tree child : FileTree} {here : Location} {name : Text} {names : List Text}

theorem step_name (hname : IsFileName name) (htree : files.at? here = some tree)
    (hchild : tree.child? name = some child) : step files here name = .ok (here ++ [name]) := by
  obtain ⟨entry, hfind, -⟩ := Option.map_eq_some_iff.mp hchild
  rw [FileTree.eq_directory_of_child? hchild] at htree
  have hentry : tree.entries.any (fun entry => entry.1 = name) = true :=
    List.any_eq_true.mpr ⟨entry, List.mem_of_find?_eq_some hfind, by simpa using List.find?_some hfind⟩
  have hshort := Nat.not_lt.mpr hname.short
  simp only [step, htree, hname.not_void, hname.ne_up, hshort, hentry, ↓reduceIte,
    Bool.false_eq_true]

lemma step_void {entries : List (Text × FileTree)} (h : files.at? here = some (.directory entries)) :
    step files here [] = .ok here := by
  simp [step, h, Path.isVoid]

/-- Pieces that are no components lead nowhere else. -/
theorem follow_voids {entries : List (Text × FileTree)} {pieces : List Text}
    (h : files.at? here = some (.directory entries))
    (hvoid : ∀ piece ∈ pieces, Path.isVoid piece = true) : follow files here pieces = .ok here := by
  induction pieces with
  | nil => rfl
  | cons piece pieces ih =>
    have hstep : step files here piece = .ok here := by
      simp [step, h, hvoid piece List.mem_cons_self]
    rw [follow, hstep]
    exact ih fun other hother => hvoid other (List.mem_cons_of_mem _ hother)

theorem follow_append (front back : List Text) :
    follow files here (front ++ back) =
      (follow files here front).bind fun next => follow files next back := by
  induction front generalizing here with
  | nil => rfl
  | cons piece front ih =>
    rw [List.cons_append, follow, follow]
    cases step files here piece with
    | error error => rfl
    | ok next => exact ih

/-- The first name on the way to something in the tree leads one step down. -/
lemma step_cons (hname : IsFileName name) (h : files.at? (here ++ name :: names) = some tree) :
    step files here name = .ok (here ++ [name]) := by
  rw [List.append_cons, FileTree.at?_append, FileTree.at?_append] at h
  obtain ⟨child, hchild, -⟩ := Option.bind_eq_some_iff.mp h
  obtain ⟨directory, hdirectory, hat⟩ := Option.bind_eq_some_iff.mp hchild
  rw [FileTree.at?_singleton] at hat
  exact step_name hname hdirectory hat

/-- The names on the way to something in the tree lead there. -/
theorem follow_names (hnames : ∀ name ∈ names, IsFileName name)
    (h : files.at? (here ++ names) = some tree) : follow files here names = .ok (here ++ names) := by
  induction names generalizing here with
  | nil => simp [follow]
  | cons name names ih =>
    rw [follow, step_cons (hnames name List.mem_cons_self) h]
    rw [List.append_cons here name names] at h ⊢
    exact ih (fun other hother => hnames other (List.mem_cons_of_mem _ hother)) h

/-! ## Asking on the way -/

lemma askedBytes_le (place : Location) (rest : List Text) :
    askedBytes place rest ≤ Text.byteLength place.path + 1 := by
  unfold askedBytes
  split_ifs <;> omega

/-- What is asked for on the way does not change where the way leads. -/
lemma follow_of_resolve {pieces : List Text} {place : Location}
    (h : resolve files here pieces = .ok place) : follow files here pieces = .ok place := by
  induction pieces generalizing here with
  | nil => exact h
  | cons piece pieces ih =>
    rw [resolve] at h
    rw [follow]
    cases hstep : step files here piece with
    | error error => simp [hstep] at h
    | ok next =>
      simp only [hstep] at h
      split_ifs at h
      exact ih h

lemma resolve_void {entries : List (Text × FileTree)} (rest : List Text)
    (h : files.at? here = some (.directory entries)) :
    resolve files here ([] :: rest) = resolve files here rest := by
  rw [resolve, step_void h]
  exact if_neg fun hdown => Nat.lt_irrefl _ hdown.1

/-- The names on the way to something in the tree can be asked for if there is room for the path of that
and a slash. -/
theorem resolve_names (hnames : ∀ name ∈ names, IsFileName name)
    (h : files.at? (here ++ names) = some tree)
    (hroom : Text.byteLength (here ++ names : Location).path < maxPathBytes) (rest : List Text) :
    resolve files here (names ++ rest) = resolve files (here ++ names) rest := by
  induction names generalizing here with
  | nil => simp
  | cons name names ih =>
    rw [List.cons_append, resolve, step_cons (hnames name List.mem_cons_self) h]
    rw [List.append_cons here name names] at h hroom ⊢
    have hasked : askedBytes (here ++ [name]) (names ++ rest) ≤ maxPathBytes := by
      have hbytes := Location.byteLength_path_le (here ++ [name]) names
      have hslash := askedBytes_le (here ++ [name]) (names ++ rest)
      omega
    dsimp only
    rw [if_neg fun htoo => Nat.not_lt.mpr hasked htoo.2]
    exact ih (fun other hother => hnames other (List.mem_cons_of_mem _ hother)) h hroom

/-! ## The current directory -/

/-- The current directory is in the tree, under names that files can have. -/
structure InPlace (workspace : Workspace) : Prop where
  names : ∀ name ∈ workspace.current, IsFileName name
  directory : ∃ entries, workspace.files.at? workspace.current = some (.directory entries)

variable {workspace : Workspace} {path : Path}

/-- Every directory on the way up from the current one could be the current one. -/
theorem InPlace.of_above {directory : Location} (h : workspace.InPlace)
    (habove : directory <+: workspace.current) : InPlace { workspace with current := directory } := by
  obtain ⟨below, hcurrent⟩ := habove
  obtain ⟨entries, hentries⟩ := h.directory
  refine ⟨fun name hname => h.names name (hcurrent ▸ List.mem_append_left below hname), ?_⟩
  rw [← hcurrent, FileTree.at?_append] at hentries
  obtain ⟨tree, htree, hbelow⟩ := Option.bind_eq_some_iff.mp hentries
  cases below with
  | nil => exact ⟨entries, htree.trans hbelow⟩
  | cons name rest =>
    rw [← List.singleton_append, FileTree.at?_append, FileTree.at?_singleton] at hbelow
    obtain ⟨child, hchild, -⟩ := Option.bind_eq_some_iff.mp hbelow
    exact ⟨_, htree.trans (congrArg some (FileTree.eq_directory_of_child? hchild))⟩

lemma InPlace.root (h : workspace.InPlace) :
    ∃ entries, workspace.files.at? [] = some (.directory entries) :=
  (h.of_above List.nil_prefix).directory

/-- A path joined to the current directory starts at the root with the names of that directory. -/
lemma exists_pieces_join_current (h : workspace.InPlace) (hpath : path.isAbsolute = false) :
    ∃ body, Path.join workspace.current.path path = '/' :: body ∧
      Text.pieces '/' ('/' :: body) = [] :: (workspace.current ++ Text.pieces '/' path) := by
  obtain ⟨body, hjoin, hbody⟩ := Path.exists_join_path h.names hpath
  refine ⟨body, hjoin, ?_⟩
  rw [← hbody]
  rfl

/-- A path joined to the current directory is walked from there, also if it is empty. -/
theorem trace_join_current (h : workspace.InPlace) (hpath : path.isAbsolute = false) :
    workspace.trace (Path.join workspace.current.path path) =
      follow workspace.files workspace.current (Text.pieces '/' path) := by
  obtain ⟨body, hjoin, hpieces⟩ := exists_pieces_join_current h hpath
  obtain ⟨entries, hentries⟩ := h.directory
  obtain ⟨rootEntries, hroot⟩ := h.root
  have hstart : workspace.start ('/' :: body) = [] := rfl
  rw [hjoin, trace, hpieces, hstart, if_neg (by simp), follow, step_void hroot]
  show follow _ [] (workspace.current ++ _) = _
  rw [follow_append, follow_names h.names hentries]
  rfl

theorem trace_join_current_of_ne_nil (h : workspace.InPlace) (hpath : path.isAbsolute = false)
    (hne : path ≠ []) :
    workspace.trace (Path.join workspace.current.path path) = workspace.trace path := by
  rw [trace_join_current h hpath, trace, if_neg (by simpa using hne), start, hpath]
  rfl

/-- An absolute path leads to the same place from everywhere. -/
lemma trace_moved (place : Location) (h : path.isAbsolute = true) :
    trace { workspace with current := place } path = workspace.trace path := by
  simp [trace, start, h]

lemma trace_current (h : workspace.InPlace) :
    workspace.trace workspace.current.path = .ok workspace.current := by
  obtain ⟨entries, hentries⟩ := h.directory
  obtain ⟨rootEntries, hroot⟩ := h.root
  rw [trace, if_neg (by simp [Location.path])]
  show follow _ [] ([] :: Text.pieces '/' (Text.joined ['/'] workspace.current)) = _
  rw [follow, step_void hroot]
  by_cases hempty : workspace.current = []
  · rw [hempty]
    show follow _ [] [[]] = _
    rw [follow, step_void hroot]
    rfl
  · rw [Text.pieces_joined hempty fun name hname => (h.names name hname).no_slash]
    exact follow_names h.names hentries

/-! ## Absolute paths -/

/-- There is room for the path of the current directory and a slash. -/
def HasRoom (workspace : Workspace) : Prop :=
  Text.byteLength workspace.current.path < maxPathBytes

lemma trace_of_canonical {place : Location} (h : workspace.canonical path = .ok place) :
    workspace.trace path = .ok place := by
  unfold canonical at h
  unfold trace
  split_ifs at h ⊢
  exact follow_of_resolve h

/-- With room for the current directory, a path joined to it is resolved from there. -/
theorem canonical_join_current (h : workspace.InPlace) (hroom : workspace.HasRoom)
    (hpath : path.isAbsolute = false) :
    workspace.canonical (Path.join workspace.current.path path) =
      resolve workspace.files workspace.current (Text.pieces '/' path) := by
  obtain ⟨body, hjoin, hpieces⟩ := exists_pieces_join_current h hpath
  obtain ⟨entries, hentries⟩ := h.directory
  obtain ⟨rootEntries, hroot⟩ := h.root
  have hstart : workspace.start ('/' :: body) = [] := rfl
  have hbelow : workspace.files.at? ([] ++ workspace.current) = some (.directory entries) := hentries
  have hdown := resolve_names h.names hbelow hroom (Text.pieces '/' path)
  rw [hjoin, canonical, hpieces, hstart, if_neg (by simp), resolve_void _ hroot, hdown]
  rfl

lemma canonical_join_current_of_ne_nil (h : workspace.InPlace) (hroom : workspace.HasRoom)
    (hpath : path.isAbsolute = false) (hne : path ≠ []) :
    workspace.canonical (Path.join workspace.current.path path) = workspace.canonical path := by
  rw [canonical_join_current h hroom hpath, canonical, if_neg (by simpa using hne), start, hpath]
  rfl

/-- The path of the current directory is absolute already, whether or not there is room for it. -/
lemma absolute_current (h : workspace.InPlace) :
    workspace.absolute workspace.current.path = workspace.current.path := by
  unfold absolute
  cases hcanonical : workspace.canonical workspace.current.path with
  | error error => rfl
  | ok place =>
    have hplace := (trace_of_canonical hcanonical).symm.trans (trace_current h)
    rw [Except.ok.inj hplace]

lemma absolute_join_current_nil (h : workspace.InPlace) (hroom : workspace.HasRoom) :
    workspace.absolute (Path.join workspace.current.path []) = workspace.current.path := by
  obtain ⟨entries, hentries⟩ := h.directory
  have hcanonical : workspace.canonical (Path.join workspace.current.path []) =
      .ok workspace.current := by
    rw [canonical_join_current h hroom rfl]
    exact resolve_void [] hentries
  rw [absolute, hcanonical]

/-- With room for the current directory, a path and the path joined to that directory have one absolute
path just if the path is absolute or has its absolute path found. -/
theorem absolute_eq_absolute_join_iff (h : workspace.InPlace) (hroom : workspace.HasRoom) :
    workspace.absolute path = workspace.absolute (Path.join workspace.current.path path) ↔
      path.isAbsolute = true ∨ ∃ place, workspace.canonical path = .ok place := by
  cases hpath : path.isAbsolute with
  | true => simp [Path.join_path_of_absolute workspace.current hpath]
  | false =>
    cases hcanonical : workspace.canonical path with
    | ok place =>
      have hne : path ≠ [] := by
        rintro rfl
        simp [canonical] at hcanonical
      simp [absolute, canonical_join_current_of_ne_nil h hroom hpath hne, hcanonical]
    | error error =>
      -- A path without an absolute path is kept as it is, and differs by its first character.
      have hkept : workspace.absolute path = path := by rw [absolute, hcanonical]
      have hjoin : (workspace.absolute (Path.join workspace.current.path path)).isAbsolute = true := by
        rw [absolute]
        split
        · rfl
        · exact Path.isAbsolute_join_path _ path
      simp only [Bool.false_eq_true, false_or, reduceCtorEq, exists_false, iff_false]
      intro heq
      rw [← heq, hkept, hpath] at hjoin
      exact Bool.false_ne_true hjoin

end Workspace

end WikiDirectives
