import WikiDirectives.CommandLine.Report
import WikiDirectives.Proofs.SettingsSearch
import WikiDirectives.Settings.Document

/-! A settings file in the current directory, named by hand or found by the search. The two ways read
the same file and differ only in the directory that the written directory of the pages is taken from:
the empty path, or the current directory. A file whose path is too long is read by its name, and passed
over by the search. -/
namespace WikiDirectives

/-- A settings file lies in the current directory. -/
structure Workspace.HasSettings (workspace : Workspace) : Prop where
  names : ∀ name ∈ workspace.current, IsFileName name
  file : ∃ content, workspace.files.at? (workspace.current ++ [Settings.fileName]) = some (.file content)

namespace Workspace.HasSettings
variable {workspace : Workspace}

theorem inPlace (h : workspace.HasSettings) : workspace.InPlace := by
  obtain ⟨content, hcontent⟩ := h.file
  rw [FileTree.at?_append] at hcontent
  obtain ⟨tree, htree, hchild⟩ := Option.bind_eq_some_iff.mp hcontent
  rw [FileTree.at?_singleton] at hchild
  exact ⟨h.names, tree.entries, htree.trans (congrArg some (FileTree.eq_directory_of_child? hchild))⟩

/-- The name of the settings file leads to it, and so does its path if it is not too long. -/
theorem locate_fileName (h : workspace.HasSettings) :
    workspace.locate Settings.fileName = .ok (workspace.current ++ [Settings.fileName]) := by
  obtain ⟨content, hcontent⟩ := h.file
  have hnames : ∀ name ∈ [Settings.fileName], IsFileName name := by
    simpa using Settings.isFileName_fileName
  exact Workspace.follow_names hnames hcontent

theorem locate_fileIn (h : workspace.HasSettings)
    (hshort : Text.byteLength (Settings.fileIn workspace.current) ≤ maxPathBytes) :
    workspace.locate (Settings.fileIn workspace.current) = workspace.locate Settings.fileName := by
  rw [Workspace.locate, if_neg (Nat.not_lt.mpr hshort), Settings.fileIn,
    Workspace.trace_join_current_of_ne_nil h.inPlace rfl (by decide)]
  rfl

lemma has_fileName (h : workspace.HasSettings) : workspace.has Settings.fileName = true := by
  rw [Workspace.has, h.locate_fileName]

lemma read_fileIn (h : workspace.HasSettings)
    (hshort : Text.byteLength (Settings.fileIn workspace.current) ≤ maxPathBytes) :
    workspace.read (Settings.fileIn workspace.current) = workspace.read Settings.fileName := by
  rw [Workspace.read, Workspace.node, h.locate_fileIn hshort]
  rfl

/-- The search looks in the current directory first. -/
theorem discover (h : workspace.HasSettings)
    (hshort : Text.byteLength (Settings.fileIn workspace.current) ≤ maxPathBytes) :
    Settings.discover workspace = some (Settings.fileIn workspace.current) := by
  refine Settings.find?_candidates.mpr ⟨workspace.current, ⟨List.prefix_rfl, ?_, ?_⟩, rfl⟩
  · rw [Workspace.has, h.locate_fileIn hshort, h.locate_fileName]
  · intro other habove hlonger
    exact absurd habove.length_le (Nat.not_le.mpr hlonger)

end Workspace.HasSettings

namespace Settings
variable {reader : SettingsReader} {workspace : Workspace}

/-! ## What the file says -/

/-- What the settings file in the current directory says, and the directory of the pages that it
writes, with its variables expanded. -/
def written (reader : SettingsReader) (workspace : Workspace) :
    Except SettingsError (SettingsSource × Option Path) := do
  let content ← (workspace.read fileName).mapError .file
  match reader.source? content with
  | none => .error .malformed
  | some source => match source.sourceDir with
    | none => .ok (source, none)
    | some dir => match reader.expand workspace dir with
      | .ok path => .ok (source, some path)
      | .error name => .error (.unsetVariable sourceDirField name)

/-- The directory of the pages that the file writes, empty if it writes none. -/
def writtenDir (reader : SettingsReader) (workspace : Workspace) : Path :=
  match written reader workspace with
  | .ok (_, some path) => path
  | _ => []

/-- What a file says, taken from a directory. -/
def placed (directory origin : Path) (file : SettingsSource × Option Path) : Settings :=
  { file.1.settings with
    sourceDir := file.2.elim directory directory.join
    origin := some origin }

/-- Reading the file by another path changes only the directory that things are taken from. -/
theorem ofFile_eq {path directory : Path} (hread : workspace.read path = workspace.read fileName)
    (hparent : path.parent? = some directory) :
    ofFile reader workspace path =
      (written reader workspace).bind fun file => checked (placed directory path file) := by
  rw [ofFile, written, hread, hparent]
  cases (workspace.read fileName).mapError SettingsError.file with
  | error error => rfl
  | ok content =>
    simp only [bind, Except.bind]
    cases reader.source? content with
    | none => rfl
    | some source =>
      obtain ⟨allowed, defaultDepth, dir?⟩ := source
      -- Only here the directory of the file comes in.
      cases dir? with
      | none => rfl
      | some dir =>
        simp only [resolveSourceDir]
        cases reader.expand workspace dir <;> rfl

theorem base_fileName (h : workspace.HasSettings) :
    base reader workspace (some fileName) =
      (written reader workspace).bind fun file => checked (placed [] fileName file) := by
  rw [base, if_pos h.has_fileName]
  exact ofFile_eq rfl rfl

theorem base_none (h : workspace.HasSettings)
    (hshort : Text.byteLength (fileIn workspace.current) ≤ maxPathBytes) :
    base reader workspace none = (written reader workspace).bind fun file =>
      checked (placed workspace.current.path (fileIn workspace.current) file) := by
  rw [base, h.discover hshort]
  exact ofFile_eq (h.read_fileIn hshort) (Path.parent?_join_path h.names isFileName_fileName)

/-- By its name alone the file is taken from the empty path, which leaves what it writes. -/
lemma sourceDir_placed_nil {file : SettingsSource × Option Path} (origin : Path)
    (h : written reader workspace = .ok file) :
    (placed [] origin file).sourceDir = writtenDir reader workspace := by
  obtain ⟨source, _ | path⟩ := file
  · simp [placed, writtenDir, h]
  · simp [placed, writtenDir, h, Path.join]

lemma absolute_sourceDir_placed_current {file : SettingsSource × Option Path} (origin : Path)
    (hplace : workspace.InPlace) (hroom : workspace.HasRoom) (h : written reader workspace = .ok file) :
    workspace.absolute (placed workspace.current.path origin file).sourceDir =
      workspace.absolute (Path.join workspace.current.path (writtenDir reader workspace)) := by
  obtain ⟨source, _ | path⟩ := file
  · have hnone : writtenDir reader workspace = [] := by rw [writtenDir, h]
    rw [hnone, Workspace.absolute_join_current_nil hplace hroom]
    exact Workspace.absolute_current hplace
  · have hsome : writtenDir reader workspace = path := by rw [writtenDir, h]
    rw [hsome]
    rfl

/-! ## What the settings are used for -/

/-- The settings without the file that they come from, and with the absolute path of the directory of
the pages: all of them that matters to a page. -/
def used (workspace : Workspace) (settings : Settings) : Settings :=
  { settings with sourceDir := workspace.absolute settings.sourceDir, origin := none }

lemma check_placed (directory origin : Path) (file : SettingsSource × Option Path) :
    (placed directory origin file).check = file.1.settings.check := rfl

lemma map_used_checked {settings settings' : Settings} (hallowed : settings.allowed = settings'.allowed)
    (hdepth : settings.defaultDepth = settings'.defaultDepth)
    (hdir : workspace.absolute settings.sourceDir = workspace.absolute settings'.sourceDir) :
    (checked settings).map (used workspace) = (checked settings').map (used workspace) := by
  have hused : used workspace settings = used workspace settings' := by
    simp only [used, hallowed, hdepth, hdir]
  rw [checked, checked, check, check, hallowed, hdepth]
  split
  · exact congrArg Except.ok hused
  · rfl

/-- What is loaded from the file is used alike, from whatever directory it is taken, if the names
allowed by hand are the same and the directories of the pages are one. -/
theorem map_used_load {given given' : Option Path} {directory directory' origin origin' : Path}
    {overrides overrides' : Overrides}
    (hbase : base reader workspace given =
      (written reader workspace).bind fun file => checked (placed directory origin file))
    (hbase' : base reader workspace given' =
      (written reader workspace).bind fun file => checked (placed directory' origin' file))
    (hallowed : overrides.allowed = overrides'.allowed)
    (hdir : ∀ file, written reader workspace = .ok file →
      workspace.absolute (overrides.sourceDir.getD (placed directory origin file).sourceDir) =
        workspace.absolute (overrides'.sourceDir.getD (placed directory' origin' file).sourceDir)) :
    (load reader workspace given (some overrides)).map (used workspace) =
      (load reader workspace given' (some overrides')).map (used workspace) := by
  rw [load, load, hbase, hbase']
  cases hwritten : written reader workspace with
  | error error => rfl
  | ok file =>
    simp only [bind, Except.bind]
    rw [checked, checked, check_placed, check_placed]
    cases file.1.settings.check with
    | error reason => rfl
    | ok _ =>
      refine map_used_checked ?_ rfl (hdir file hwritten)
      exact congrArg (Option.getD · file.1.settings.allowed) hallowed

lemma registry_eq_of_used {settings settings' : Settings}
    (h : used workspace settings = used workspace settings') :
    settings.registry = settings'.registry := by
  show (used workspace settings).registry = (used workspace settings').registry
  rw [h]

lemma absolute_eq_of_used {settings settings' : Settings}
    (h : used workspace settings = used workspace settings') :
    workspace.absolute settings.sourceDir = workspace.absolute settings'.sourceDir :=
  congrArg sourceDir h

end Settings

namespace CommandLine
open Settings
variable {reader : SettingsReader} {workspace : Workspace}

lemma overrides_with (options : ExpandOptions) (config sourceDir : Option Path) :
    { options with config, sourceDir }.overrides = { options.overrides with sourceDir } := rfl

/-- A page depends on the settings only by what is used of them. -/
theorem expandFile_congr (options : ExpandOptions) {config config' sourceDir sourceDir' : Option Path}
    (h : (load reader workspace config (some { options.overrides with sourceDir })).map (used workspace) =
      (load reader workspace config' (some { options.overrides with sourceDir := sourceDir' })).map
        (used workspace)) :
    expandFile reader workspace { options with config, sourceDir } =
      expandFile reader workspace { options with config := config', sourceDir := sourceDir' } := by
  unfold expandFile
  rw [overrides_with options config sourceDir, overrides_with options config' sourceDir']
  dsimp only
  generalize load reader workspace config (some { options.overrides with sourceDir }) = loaded at h ⊢
  generalize load reader workspace config' (some { options.overrides with sourceDir := sourceDir' }) =
    loaded' at h ⊢
  cases loaded with
  | error error =>
    cases loaded' with
    | error error' => rw [Except.error.inj h]
    | ok settings' => exact absurd h nofun
  | ok settings =>
    cases loaded' with
    | error error' => exact absurd h nofun
    | ok settings' =>
      have hused := Except.ok.inj h
      simp only [registry_eq_of_used hused, expandContent, absolute_eq_of_used hused]

/-- A run without a file that is named is one with the file that the search finds. -/
lemma expandFile_of_fileUsed {path : Path} (hfile : FileUsed workspace none (some path))
    (options : ExpandOptions) (sourceDir : Option Path) :
    expandFile reader workspace { options with config := none, sourceDir } =
      expandFile reader workspace { options with config := some path, sourceDir } := by
  have hbase : base reader workspace (some path) = base reader workspace none := by
    rw [fileUsed_iff.mp hfile, base_or_discover]
  refine expandFile_congr options (congrArg (Except.map (used workspace)) ?_)
  rw [load, load, hbase]

/-- A run with a settings file in the current directory. Named by hand the file gives the directory of
the pages as it writes it. If the path of the file is not too long then the search finds it and gives that
directory from the current one. The two runs are the same when a directory of pages is given by hand, and
else if the written directory is absolute or its absolute path can be found: just then the two directories
have one absolute path. If the path of the file is too long then the search passes the file over: the
other run is that with the nearest file further up, or with the usual settings. -/
theorem expandFile_settings (reader : SettingsReader) (workspace : Workspace) (options : ExpandOptions)
    (h : workspace.HasSettings) :
    let run (config sourceDir : Option Path) :=
      expandFile reader workspace { options with config, sourceDir }
    let path := fileIn workspace.current
    let directory := writtenDir reader workspace
    let anchored := Path.join workspace.current.path directory
    let agree := directory.isAbsolute = true ∨ ∃ place, workspace.canonical directory = .ok place
    run (some fileName) none = run (some fileName) (some directory) ∧
      (Text.byteLength path ≤ maxPathBytes →
        (∀ given, run (some fileName) (some given) = run none (some given)) ∧
        run none none = run none (some anchored) ∧
        (workspace.absolute directory = workspace.absolute anchored ↔ agree) ∧
        (agree → run (some fileName) none = run none none)) ∧
      (maxPathBytes < Text.byteLength path →
        (∀ above, FileUsed workspace none (some above) →
          above ≠ path ∧ ∀ sourceDir, run none sourceDir = run (some above) sourceDir) ∧
        (FileUsed workspace none none → base reader workspace none = .ok (usual workspace))) := by
  intro run path directory anchored agree
  have hnamed := @base_fileName reader workspace h
  have hwritten : run (some fileName) none = run (some fileName) (some directory) := by
    refine expandFile_congr options (map_used_load hnamed hnamed rfl ?_)
    intro file hfile
    exact congrArg workspace.absolute (sourceDir_placed_nil fileName hfile)
  refine ⟨hwritten, fun hshort => ?_, fun hlong => ⟨fun above habove => ?_, fun hnowhere => ?_⟩⟩
  · -- Both runs load one file, so that they are the same once their roots are.
    have hfound := @base_none reader workspace h hshort
    have hroom := h.inPlace.hasRoom hshort
    have hgiven (given : Path) : run (some fileName) (some given) = run none (some given) :=
      expandFile_congr options (map_used_load hnamed hfound rfl fun _ _ => rfl)
    have hanchored : run none none = run none (some anchored) := by
      refine expandFile_congr options (map_used_load hfound hfound rfl ?_)
      intro file hfile
      exact absolute_sourceDir_placed_current _ h.inPlace hroom hfile
    have hroots : workspace.absolute directory = workspace.absolute anchored ↔ agree :=
      Workspace.absolute_eq_absolute_join_iff h.inPlace hroom
    refine ⟨hgiven, hanchored, hroots, fun hagree => ?_⟩
    rw [hwritten, hgiven, hanchored]
    exact expandFile_congr options (map_used_load hfound hfound rfl fun _ _ => hroots.mpr hagree)
  · refine ⟨?_, expandFile_of_fileUsed habove options⟩
    rintro rfl
    exact Nat.not_le.mpr hlong (Workspace.byteLength_of_has (List.find?_some (discover_eq habove)))
  · rw [base, discover_eq hnowhere]

/-- A wiki with its settings, a page that lists the page below it, and the two also under `docs`. -/
def sampleWiki (settings : String) : Workspace where
  files :=
    let pages : List (Text × FileTree) :=
      [("guide.md".toList, .file "[article_list]\n".toUTF8),
        ("guide".toList, .directory [("install.md".toList, .file "# Install\n".toUTF8)])]
    .directory [("wiki".toList, .directory
      ((fileName, .file settings.toUTF8) :: ("docs".toList, .directory pages) :: pages))]
  current := ["wiki".toList]
  environment := .empty

lemma hasSettings_sampleWiki (settings : String) : (sampleWiki settings).HasSettings where
  names := by
    show ∀ name ∈ ["wiki".toList], IsFileName name
    decide
  file := ⟨settings.toUTF8, rfl⟩

/-- A written directory that leads somewhere: the two runs are one. -/
theorem expandFile_settings_docs :
    let workspace := sampleWiki "[docs]\nsource_dir = \"docs\"\n"
    let options : ExpandOptions := { file := "docs/guide.md".toList }
    workspace.HasSettings ∧ writtenDir .toml workspace = "docs".toList ∧
      expandFile .toml workspace { options with config := some fileName } =
        expandFile .toml workspace options := by
  refine ⟨hasSettings_sampleWiki _, by decide +kernel, ?_⟩
  have hlaw := expandFile_settings .toml (sampleWiki "[docs]\nsource_dir = \"docs\"\n")
    { file := "docs/guide.md".toList } (hasSettings_sampleWiki _)
  obtain ⟨-, -, -, hagree⟩ := hlaw.2.1 (by decide +kernel)
  exact hagree (.inr ⟨["wiki".toList, "docs".toList], by decide +kernel⟩)

/-- Without a written directory the empty path is left, and addresses keep the current directory. -/
theorem expandFile_settings_listing :
    let workspace := sampleWiki ""
    let page (config : Option Path) :=
      (expandFile .toml workspace { file := "guide.md".toList, config }).result
    let listing (url : String) : Text :=
      "<nav class=\"article-list\" data-depth=\"3\"><ul><li><a href=\"".toList ++ url.toList ++
        "\">Install</a></li></ul></nav>\n".toList
    workspace.HasSettings ∧ page (some fileName) = .ok (listing "///wiki/guide/install") ∧
      page none = .ok (listing "/guide/install") := by
  exact ⟨hasSettings_sampleWiki _, by decide +kernel, by decide +kernel⟩

end CommandLine

end WikiDirectives
