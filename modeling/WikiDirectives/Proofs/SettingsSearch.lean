import Mathlib.Data.List.Induction
import WikiDirectives.Proofs.PagePaths
import WikiDirectives.Settings.Load

/-! The search for a settings file. It looks in the current directory and upwards and stops at the first
file that it can ask for, so that one whose path is too long is passed over. -/
namespace WikiDirectives

namespace Settings
variable {workspace : Workspace} {current directory : Location} {given file : Option Path} {path : Path}

/-! ## The nearest file -/

/-- The path of the settings file in a directory. -/
def fileIn (directory : Location) : Path := Path.join directory.path fileName

/-- Of the directories on the way up from a directory it is the first whose settings file is there when
one asks for it by its path. -/
structure IsNearest (workspace : Workspace) (current directory : Location) : Prop where
  above : directory <+: current
  found : workspace.has (fileIn directory) = true
  nearer : ∀ other, other <+: current → directory.length < other.length →
    workspace.has (fileIn other) = false

/-- One step of the search looks in a directory and leaves it for the one above. -/
lemma candidates_concat (current : Location) (name : Text) :
    candidates (current ++ [name]) = fileIn (current ++ [name]) :: candidates current := by
  have htake : ∀ count ∈ (List.range (current.length + 1)).reverse,
      (current ++ [name]).take count = current.take count := fun count hcount => by
    have hle : count ≤ current.length := by simpa [Nat.lt_succ_iff] using hcount
    exact List.take_append_of_le_length hle
  have hlength : (current ++ [name]).length = current.length + 1 := by simp
  have hwhole : (current ++ [name]).take (current.length + 1) = current ++ [name] := by
    rw [← hlength, List.take_length]
  rw [candidates, hlength, List.range_succ, List.reverse_append, List.reverse_singleton,
    List.singleton_append, List.map_cons, hwhole]
  refine congrArg (List.cons _) (List.map_congr_left fun count hcount => ?_)
  rw [htake count hcount]

/-- The whole search, from the root downwards by one name at a time: it stops at the nearest file. -/
theorem find?_candidates :
    (candidates current).find? workspace.has = some path ↔
      ∃ directory, IsNearest workspace current directory ∧ path = fileIn directory := by
  induction current using List.reverseRecOn with
  | nil =>
    have hroot : candidates [] = [fileIn []] := rfl
    rw [hroot, List.find?_singleton]
    constructor
    · intro h
      obtain ⟨hfound, rfl⟩ : workspace.has (fileIn []) = true ∧ fileIn [] = path := by simpa using h
      exact ⟨[], ⟨List.prefix_rfl, hfound, by simp⟩, rfl⟩
    · rintro ⟨directory, hnearest, rfl⟩
      obtain rfl := List.prefix_nil.mp hnearest.above
      rw [if_pos hnearest.found]
  | append_singleton current name ih =>
    rw [candidates_concat, List.find?_cons]
    cases hhere : workspace.has (fileIn (current ++ [name])) with
    | true =>
      constructor
      · rintro ⟨⟩
        refine ⟨current ++ [name], ⟨List.prefix_rfl, hhere, fun other habove hlonger => ?_⟩, rfl⟩
        exact absurd habove.length_le (Nat.not_le.mpr hlonger)
      · rintro ⟨directory, hnearest, rfl⟩
        rcases List.prefix_concat_iff.mp hnearest.above with rfl | habove
        · rfl
        · have hlonger : directory.length < (current ++ [name]).length := by
            have hle := habove.length_le
            simp only [List.length_append, List.length_singleton]
            omega
          simp [hnearest.nearer _ List.prefix_rfl hlonger] at hhere
    | false =>
      refine ih.trans (exists_congr fun directory => and_congr_left fun _ => ?_)
      constructor
      · intro h
        refine ⟨h.above.trans (List.prefix_append current [name]), h.found, fun other habove => ?_⟩
        rcases List.prefix_concat_iff.mp habove with rfl | hother
        · exact fun _ => hhere
        · exact h.nearer other hother
      · intro h
        refine ⟨?_, h.found, fun other habove => h.nearer other (habove.trans (List.prefix_append _ _))⟩
        refine (List.prefix_concat_iff.mp h.above).resolve_left ?_
        rintro rfl
        simp [h.found] at hhere

lemma mem_candidates :
    path ∈ candidates current ↔ ∃ directory, directory <+: current ∧ path = fileIn directory := by
  simp only [candidates, List.mem_map, List.mem_reverse, List.mem_range]
  constructor
  · rintro ⟨count, -, rfl⟩
    exact ⟨current.take count, List.take_prefix _ _, rfl⟩
  · rintro ⟨directory, habove, rfl⟩
    refine ⟨directory.length, Nat.lt_succ_of_le habove.length_le, ?_⟩
    rw [← List.prefix_iff_eq_take.mp habove]
    rfl

/-- The settings file that is used: the given one or else the nearest one, or none. -/
inductive FileUsed (workspace : Workspace) : Option Path → Option Path → Prop
  | given (path : Path) : FileUsed workspace (some path) (some path)
  | nearest {directory : Location} (h : IsNearest workspace workspace.current directory) :
      FileUsed workspace none (some (fileIn directory))
  | nowhere (h : ∀ directory, directory <+: workspace.current →
      workspace.has (fileIn directory) = false) : FileUsed workspace none none

theorem fileUsed_iff : FileUsed workspace given file ↔ file = given.or (discover workspace) := by
  cases given with
  | some path =>
    constructor
    · rintro ⟨⟩
      rfl
    · rintro rfl
      exact .given path
  | none =>
    rw [Option.none_or]
    constructor
    · rintro (_ | hnearest | hnowhere)
      · exact (find?_candidates.mpr ⟨_, hnearest, rfl⟩).symm
      · refine (List.find?_eq_none.mpr fun path hpath => ?_).symm
        obtain ⟨directory, habove, rfl⟩ := mem_candidates.mp hpath
        simp [hnowhere directory habove]
    · rintro rfl
      cases hdiscover : discover workspace with
      | some path =>
        obtain ⟨directory, hnearest, rfl⟩ := find?_candidates.mp hdiscover
        exact .nearest hnearest
      | none =>
        refine .nowhere fun directory habove => ?_
        simpa using List.find?_eq_none.mp hdiscover _ (mem_candidates.mpr ⟨directory, habove, rfl⟩)

lemma discover_eq (h : FileUsed workspace none file) : discover workspace = file :=
  (fileUsed_iff.mp h).symm

/-- A file that was found is loaded as if it had been given. -/
theorem base_or_discover (reader : SettingsReader) (workspace : Workspace) (given : Option Path) :
    base reader workspace (given.or (discover workspace)) = base reader workspace given := by
  cases given with
  | some path => rfl
  | none =>
    rw [Option.none_or]
    cases hdiscover : discover workspace with
    | none => rfl
    | some path =>
      have hfound : workspace.has path = true := List.find?_some hdiscover
      simp only [base, hdiscover, hfound, ↓reduceIte]

/-! ## The path of a settings file -/

lemma isFileName_fileName : IsFileName fileName := by decide

lemma fileIn_eq_path (hnames : ∀ name ∈ directory, IsFileName name) :
    fileIn directory = Location.path (directory ++ [fileName]) :=
  Path.join_path_fileName hnames isFileName_fileName

/-- The name of the file takes seven bytes and a slash, but for the file at the root. -/
lemma byteLength_fileIn (hnames : ∀ name ∈ directory, IsFileName name) (hne : directory ≠ []) :
    Text.byteLength (fileIn directory) = Text.byteLength directory.path + 8 := by
  rw [fileIn_eq_path hnames, Location.byteLength_path_append hne]
  rfl

end Settings

/-! ## Files that the search finds -/

namespace Workspace
variable {workspace : Workspace} {files : FileTree} {here : Location} {path : Path}

lemma byteLength_of_has (h : workspace.has path = true) : Text.byteLength path ≤ maxPathBytes := by
  by_contra hlong
  rw [has, locate, if_pos (Nat.not_le.mp hlong)] at h
  simp at h

lemma exists_step_name_iff {name : Text} (hname : IsFileName name) :
    (∃ next, step files here name = .ok next) ↔ ∃ tree, files.at? (here ++ [name]) = some tree := by
  constructor
  · rintro ⟨next, hstep⟩
    obtain ⟨entries, hentries⟩ := exists_directory_of_step hstep
    rw [FileTree.at?_append, hentries, Option.bind_some, FileTree.at?_singleton]
    show ∃ tree, (entries.find? _).map _ = some tree
    cases hfind : entries.find? fun entry => entry.1 = name with
    | some entry => exact ⟨entry.2, rfl⟩
    | none =>
      have hany : entries.any (fun entry => entry.1 = name) = false := by
        rw [List.any_eq_false]
        exact List.find?_eq_none.mp hfind
      simp [step, hentries, hname.not_void, hname.ne_up, Nat.not_lt.mpr hname.short, hany] at hstep
  · rintro ⟨child, hchild⟩
    rw [FileTree.at?_append] at hchild
    obtain ⟨tree, htree, hchild⟩ := Option.bind_eq_some_iff.mp hchild
    exact ⟨_, step_name hname htree ((FileTree.at?_singleton tree name).symm.trans hchild)⟩

/-- On the way up from the current directory there is a settings file where the tree has one, unless its
path is too long. -/
theorem has_fileIn_iff {directory : Location} (h : workspace.InPlace)
    (habove : directory <+: workspace.current) :
    workspace.has (Settings.fileIn directory) = true ↔
      (∃ tree, workspace.files.at? (directory ++ [Settings.fileName]) = some tree) ∧
        Text.byteLength (Settings.fileIn directory) ≤ maxPathBytes := by
  have htrace : workspace.trace (Settings.fileIn directory) =
      step workspace.files directory Settings.fileName := by
    rw [Settings.fileIn, ← trace_moved directory (Path.isAbsolute_join_path _ _),
      trace_join_current (h.of_above habove) rfl]
    exact follow_singleton _ _ _
  rw [← exists_step_name_iff Settings.isFileName_fileName, ← htrace]
  unfold has locate
  by_cases hlong : maxPathBytes < Text.byteLength (Settings.fileIn directory)
  · simp [hlong, Nat.not_le.mpr hlong]
  · rw [if_neg hlong]
    cases workspace.trace (Settings.fileIn directory) <;> simp [Nat.not_lt.mp hlong]

/-- With room for the path of its settings file there is room for that of a directory. -/
lemma InPlace.hasRoom (h : workspace.InPlace)
    (hshort : Text.byteLength (Settings.fileIn workspace.current) ≤ maxPathBytes) :
    workspace.HasRoom := by
  by_cases hroot : workspace.current = []
  · rw [HasRoom, hroot]
    decide
  · rw [Settings.byteLength_fileIn h.names hroot] at hshort
    exact Nat.lt_of_lt_of_le (Nat.lt_add_of_pos_right (by decide)) hshort

end Workspace

end WikiDirectives
