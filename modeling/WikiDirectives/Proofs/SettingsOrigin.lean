import WikiDirectives.Proofs.LoadedSettings

/-! Where settings come from: which file is used, what of the settings is given by hand, written in the
file or usual, and when there are none. -/
namespace WikiDirectives

/-! ## Files that can be read -/

namespace Workspace
variable {workspace : Workspace} {files : FileTree} {here next : Location} {path : Path}

/-- Pieces that are no components lead only to a directory. -/
lemma exists_directory_of_follow_voids {pieces : List Text} (hne : pieces ≠ [])
    (hvoid : ∀ piece ∈ pieces, Path.isVoid piece = true) (h : follow files here pieces = .ok next) :
    ∃ entries, files.at? next = some (.directory entries) := by
  obtain ⟨piece, rest, rfl⟩ := List.exists_cons_of_ne_nil hne
  have hstep : ∃ other, step files here piece = .ok other := by
    rw [follow] at h
    cases hpiece : step files here piece with
    | ok other => exact ⟨other, rfl⟩
    | error error => simp [hpiece] at h
  obtain ⟨other, hother⟩ := hstep
  obtain ⟨entries, hentries⟩ := exists_directory_of_step hother
  rw [follow_voids hentries hvoid] at h
  exact ⟨entries, Except.ok.inj h ▸ hentries⟩

lemma isVoid_of_parent? (h : path.parent? = none) :
    ∀ piece ∈ Text.pieces '/' path, Path.isVoid piece = true := by
  have hnone : path.pieces = [] := by
    rw [Path.parent?] at h
    split_ifs at h with hempty
    exact List.isEmpty_iff.mp hempty
  have hbody : ∀ piece ∈ Text.pieces '/' path.opening.2, Path.isVoid piece = true := by
    simpa [Path.pieces, Path.dropVoids, List.dropWhile_eq_nil_iff] using hnone
  -- The slash or the dot that a path begins with is no component either.
  fun_cases Path.opening path with
  | case1 body => simpa [Text.pieces, Path.opening, Path.isVoid] using hbody
  | case2 => decide
  | case3 body => simpa [Text.pieces, Path.opening, Path.isVoid] using hbody
  | case4 body hroot hdot hhere =>
    rw [Path.opening] at hbody <;> assumption

lemma exists_of_read {content : Text} (h : workspace.read path = .ok content) :
    ∃ location bytes, workspace.trace path = .ok location ∧
      workspace.files.at? location = some (.file bytes) := by
  unfold read node at h
  cases hlocate : workspace.locate path with
  | error error => simp [hlocate] at h
  | ok location =>
    simp only [hlocate] at h
    cases htree : workspace.files.at? location with
    | none => simp [htree] at h
    | some tree =>
      cases tree with
      | directory entries => simp [htree] at h
      | file bytes => exact ⟨location, bytes, trace_of_locate hlocate, htree⟩

/-- A path without a parent is no path of a file. -/
theorem exists_parent?_of_read {content : Text} (h : workspace.read path = .ok content) :
    ∃ directory, path.parent? = some directory := by
  cases hparent : path.parent? with
  | some directory => exact ⟨directory, rfl⟩
  | none =>
    obtain ⟨location, bytes, htrace, hfile⟩ := exists_of_read h
    unfold trace at htrace
    split_ifs at htrace
    obtain ⟨entries, hentries⟩ := exists_directory_of_follow_voids (Text.pieces_ne_nil '/' path)
      (isVoid_of_parent? hparent) htrace
    simp [hfile] at hentries

end Workspace

/-- All that is written can be used. -/
structure SettingsSource.Valid (reader : SettingsReader) (workspace : Workspace)
    (source : SettingsSource) : Prop where
  names : ∀ names ∈ source.allowed, ∀ name ∈ names, isName name = true
  depth : ∀ depth ∈ source.defaultDepth, 1 ≤ depth ∧ depth ≤ Builtin.maxDepth
  sourceDir : ∀ text ∈ source.sourceDir, ∃ path, reader.expand workspace text = .ok path

/-! ## Checks -/

namespace Settings
variable {reader : SettingsReader} {workspace : Workspace} {given file : Option Path}
  {path directory : Path} {source : SettingsSource} {overrides : Overrides} {settings : Settings}

lemma checkNames_eq_ok_iff {names : List Text} :
    checkNames names = .ok () ↔ ∀ name ∈ names, isName name = true := by
  induction names with
  | nil => simp [checkNames]
  | cons name names ih =>
    rw [checkNames, List.forall_mem_cons, ← ih]
    split_ifs with hempty hname
    · simp [List.isEmpty_iff.mp hempty, isName]
    · simp [hname]
    · simp [hname]

theorem check_eq_ok_iff :
    settings.check = .ok () ↔ (∀ name ∈ settings.allowed, isName name = true) ∧
      1 ≤ settings.defaultDepth ∧ settings.defaultDepth ≤ Builtin.maxDepth := by
  constructor
  · intro h
    refine ⟨checkNames_eq_ok_iff.mp ?_, defaultDepth_of_check h⟩
    unfold check at h
    cases hnames : checkNames settings.allowed with
    | error reason => simp [hnames, bind, Except.bind] at h
    | ok _ => rfl
  · rintro ⟨hnames, hpos, hdepth⟩
    rw [check, checkNames_eq_ok_iff.mpr hnames]
    simp [bind, Except.bind, checkDepth, hdepth, Nat.pos_iff_ne_zero.mp hpos]

lemma checked_of_check (h : settings.check = .ok ()) : checked settings = .ok settings := by
  rw [checked, h]

/-- Only the names can be made bad by hand. -/
lemma check_override_iff (h : settings.check = .ok ()) :
    (settings.override overrides).check = .ok () ↔
      ∀ name ∈ overrides.allowed.getD settings.allowed, isName name = true := by
  rw [check_eq_ok_iff]
  exact and_iff_left (check_eq_ok_iff.mp h).2

/-! ## Origins -/

/-- What the used file writes, and the directory that this is taken from. Where there is no file nothing
is written, and the directory is the current one. -/
inductive Writes (reader : SettingsReader) (workspace : Workspace) :
    Option Path → SettingsSource → Path → Prop
  | file {path directory : Path} {content : Text} {source : SettingsSource}
      (hread : workspace.read path = .ok content)
      (hsource : reader.source? content = some source)
      (hparent : path.parent? = some directory) : Writes reader workspace (some path) source directory
  | nothing : Writes reader workspace none {} workspace.current.path

/-- The directory of the pages: given by hand, or written, or the directory of the file. -/
inductive PagesIn (reader : SettingsReader) (workspace : Workspace) (directory : Path) :
    Option Path → Option Text → Path → Prop
  | given (path : Path) (text? : Option Text) :
      PagesIn reader workspace directory (some path) text? path
  | written {text : Text} {path : Path} (h : reader.expand workspace text = .ok path) :
      PagesIn reader workspace directory none (some text) (directory.join path)
  | beside : PagesIn reader workspace directory none none directory

/-- Where each of the settings is from. -/
structure Provenance (reader : SettingsReader) (workspace : Workspace) (file : Option Path)
    (directory : Path) (source : SettingsSource) (overrides : Overrides) (settings : Settings) : Prop where
  origin : settings.origin = file
  allowed : settings.allowed = (overrides.allowed.or source.allowed).getD Registry.usualNames
  defaultDepth : settings.defaultDepth = source.defaultDepth.getD Builtin.usualDepth
  sourceDir :
    PagesIn reader workspace directory overrides.sourceDir source.sourceDir settings.sourceDir

lemma resolveSourceDir_eq_ok_iff {text? : Option Text} :
    resolveSourceDir reader workspace directory text? = .ok path ↔
      PagesIn reader workspace directory none text? path := by
  cases text? with
  | none =>
    constructor
    · rintro ⟨⟩
      exact .beside
    · rintro ⟨⟩
      rfl
  | some text =>
    rw [resolveSourceDir]
    constructor
    · intro h
      cases hexpand : reader.expand workspace text with
      | error name => simp [hexpand] at h
      | ok found =>
        rw [hexpand] at h
        obtain rfl := Except.ok.inj h
        exact .written hexpand
    · rintro (_ | hexpand | _)
      rw [hexpand]

lemma Provenance.eq_settings (h : Provenance reader workspace file directory source {} settings) :
    settings = { source.settings with sourceDir := settings.sourceDir, origin := file } := by
  obtain ⟨allowed, defaultDepth, sourceDir, origin⟩ := settings
  obtain ⟨rfl, rfl, rfl, -⟩ := h
  rfl

/-- Settings made by hand on top of others. -/
theorem Provenance.override (h : Provenance reader workspace file directory source {} settings)
    (overrides : Overrides) :
    Provenance reader workspace file directory source overrides (settings.override overrides) := by
  refine ⟨h.origin, ?_, h.defaultDepth, ?_⟩
  · have hallowed : settings.allowed = source.allowed.getD Registry.usualNames := h.allowed
    cases hnames : overrides.allowed <;> simp [Settings.override, hnames, hallowed]
  · cases hdir : overrides.sourceDir with
    | none =>
      have hkept : (settings.override overrides).sourceDir = settings.sourceDir := by
        simp [Settings.override, hdir]
      rw [hkept]
      exact h.sourceDir
    | some path =>
      have hgiven : (settings.override overrides).sourceDir = path := by
        simp [Settings.override, hdir]
      rw [hgiven]
      exact .given path source.sourceDir

lemma PagesIn.exists_expand {text? : Option Text}
    (h : PagesIn reader workspace directory none text? path) :
    ∀ text ∈ text?, ∃ found, reader.expand workspace text = .ok found := by
  rintro text ⟨⟩
  obtain _ | hexpand | _ := h
  exact ⟨_, hexpand⟩

/-- Settings from what is written pass the check just if all that is written can be used. What is usual
passes it. -/
theorem Provenance.check_iff (h : Provenance reader workspace file directory source {} settings) :
    settings.check = .ok () ↔ source.Valid reader workspace := by
  have husualNames : ∀ name ∈ Registry.usualNames, isName name = true := by decide
  have husualDepth : 1 ≤ Builtin.usualDepth ∧ Builtin.usualDepth ≤ Builtin.maxDepth := by decide
  have hallowed : settings.allowed = source.allowed.getD Registry.usualNames := h.allowed
  rw [check_eq_ok_iff, hallowed, h.defaultDepth]
  constructor
  · rintro ⟨hnames, hdepth⟩
    refine ⟨fun names hwritten => ?_, fun depth hwritten => ?_, h.sourceDir.exists_expand⟩
    · rwa [Option.mem_def.mp hwritten] at hnames
    · rwa [Option.mem_def.mp hwritten] at hdepth
  · intro hvalid
    constructor
    · cases hwritten : source.allowed with
      | none => exact husualNames
      | some names => exact hvalid.names names hwritten
    · cases hwritten : source.defaultDepth with
      | none => exact husualDepth
      | some depth => exact hvalid.depth depth hwritten

theorem exists_provenance (hvalid : source.Valid reader workspace) (file : Option Path) (directory : Path) :
    ∃ settings, Provenance reader workspace file directory source {} settings := by
  obtain ⟨path, hpath⟩ : ∃ path, PagesIn reader workspace directory none source.sourceDir path := by
    cases hwritten : source.sourceDir with
    | none => exact ⟨directory, .beside⟩
    | some text =>
      obtain ⟨path, hexpand⟩ := hvalid.sourceDir text hwritten
      exact ⟨directory.join path, .written hexpand⟩
  exact ⟨{ source.settings with sourceDir := path, origin := file }, rfl, rfl, rfl, hpath⟩

lemma exists_writes_of_ofFile (h : ofFile reader workspace path = .ok settings) :
    ∃ source directory, Writes reader workspace (some path) source directory := by
  unfold ofFile at h
  cases hread : workspace.read path with
  | error error => simp [hread, Except.mapError, bind, Except.bind] at h
  | ok content =>
    obtain ⟨directory, hparent⟩ := Workspace.exists_parent?_of_read hread
    cases hsource : reader.source? content with
    | none =>
      simp [hread, Except.mapError, bind, Except.bind, hsource] at h
    | some source => exact ⟨source, directory, .file hread hsource hparent⟩

lemma ofFile_of_writes (h : Writes reader workspace (some path) source directory) :
    ofFile reader workspace path = (resolveSourceDir reader workspace directory source.sourceDir).bind
      fun sourceDir => checked { source.settings with sourceDir, origin := some path } := by
  obtain ⟨hread, hsource, hparent⟩ := h
  rw [ofFile, hread, hparent]
  simp only [Except.mapError, bind, Except.bind, hsource]
  rfl

/-- The settings of a file are those with the origins that the file gives them, if they can be used. -/
theorem ofFile_eq_ok_iff (h : Writes reader workspace (some path) source directory) :
    ofFile reader workspace path = .ok settings ↔ source.Valid reader workspace ∧
      Provenance reader workspace (some path) directory source {} settings := by
  rw [ofFile_of_writes h]
  constructor
  · intro hfile
    cases hdir : resolveSourceDir reader workspace directory source.sourceDir with
    | error error => simp [hdir, Except.bind] at hfile
    | ok sourceDir =>
      rw [hdir] at hfile
      obtain ⟨rfl, hcheck⟩ := checked_eq_ok hfile
      have horigins : Provenance reader workspace (some path) directory source {}
          { source.settings with sourceDir, origin := some path } :=
        ⟨rfl, rfl, rfl, resolveSourceDir_eq_ok_iff.mp hdir⟩
      exact ⟨horigins.check_iff.mp hcheck, horigins⟩
  · rintro ⟨hvalid, horigins⟩
    rw [resolveSourceDir_eq_ok_iff.mpr horigins.sourceDir]
    show checked _ = _
    rw [← horigins.eq_settings, checked_of_check (horigins.check_iff.mpr hvalid)]

/-! ## Loading -/

lemma has_of_writes (h : Writes reader workspace (some path) source directory) : workspace.has path = true := by
  obtain ⟨hread, -, -⟩ := h
  cases hlocate : workspace.locate path with
  | ok location => rw [Workspace.has, hlocate]
  | error error => simp [Workspace.read, Workspace.node, hlocate] at hread

/-- The three ways to settings as one: with the used file as the given one. -/
theorem base_eq_ok_iff (hfile : FileUsed workspace given file) :
    base reader workspace given = .ok settings ↔ ∃ source directory, Writes reader workspace file source directory ∧
      source.Valid reader workspace ∧
      Provenance reader workspace file directory source {} settings := by
  obtain rfl := fileUsed_iff.mp hfile
  rw [← base_or_discover]
  cases hused : given.or (discover workspace) with
  | some path =>
    rw [base]
    constructor
    · intro h
      split_ifs at h
      obtain ⟨source, directory, hwrites⟩ := exists_writes_of_ofFile h
      exact ⟨source, directory, hwrites, (ofFile_eq_ok_iff hwrites).mp h⟩
    · rintro ⟨source, directory, hwrites, hload⟩
      rw [if_pos (has_of_writes hwrites)]
      exact (ofFile_eq_ok_iff hwrites).mpr hload
  | none =>
    obtain ⟨-, hnowhere⟩ := Option.or_eq_none_iff.mp hused
    rw [base, hnowhere]
    constructor
    · intro h
      obtain rfl := Except.ok.inj h
      exact ⟨{}, _, .nothing, ⟨by simp, by simp, by simp⟩, ⟨rfl, rfl, rfl, .beside⟩⟩
    · rintro ⟨source, directory, ⟨⟩, -, horigins⟩
      have hcurrent : workspace.current.path = settings.sourceDir :=
        Except.ok.inj (resolveSourceDir_eq_ok_iff.mpr horigins.sourceDir)
      rw [horigins.eq_settings, ← hcurrent]
      rfl

/-- Loading without settings given by hand is like loading with an empty set of them. -/
theorem load_eq (reader : SettingsReader) (workspace : Workspace) (given : Option Path) (overrides : Option Overrides) :
    load reader workspace given overrides = (base reader workspace given).bind
      fun settings => checked (settings.override (overrides.getD {})) := by
  rw [load]
  cases hbase : base reader workspace given with
  | error error => rfl
  | ok settings =>
    cases overrides with
    | some overrides => rfl
    | none => exact (checked_of_check (check_of_base hbase)).symm

lemma load_none (reader : SettingsReader) (workspace : Workspace) (given : Option Path) :
    load reader workspace given none = base reader workspace given := by
  rw [load]
  cases base reader workspace given <;> rfl

/-- What is loaded has been changed by hand only after it could be used as it was. -/
lemma exists_base_of_load {overrides : Option Overrides}
    (h : load reader workspace given overrides = .ok settings) :
    ∃ plain, base reader workspace given = .ok plain ∧ settings = plain.override (overrides.getD {}) := by
  rw [load_eq] at h
  cases hbase : base reader workspace given with
  | error error => simp [hbase, Except.bind] at h
  | ok plain =>
    rw [hbase] at h
    exact ⟨plain, rfl, (checked_eq_ok h).1⟩

theorem exists_load_eq_error_iff {plain : Settings} (h : base reader workspace given = .ok plain)
    (overrides : Option Overrides) :
    (∃ error, load reader workspace given overrides = .error error) ↔
      ∃ name ∈ (overrides.getD {}).allowed.getD plain.allowed, isName name = false := by
  have hcheck := @check_override_iff (overrides.getD {}) plain (check_of_base h)
  have hbad : (∃ name ∈ (overrides.getD {}).allowed.getD plain.allowed, isName name = false) ↔
      (plain.override (overrides.getD {})).check ≠ .ok () := by
    rw [Ne, hcheck]
    simp
  rw [hbad, load_eq, h]
  show (∃ error, checked _ = _) ↔ _
  unfold checked
  cases (plain.override (overrides.getD {})).check <;> simp

/-- Where settings come from. There is one file that is used: the given one, or the settings file of the
nearest directory on the way up where there is one that the search can ask for, or none. That is one whose
path has no more than 4095 bytes; a file with a longer path is passed over. The used file is loaded without
settings given by hand just if all that is written in it can be used. If that fails then so does loading
with any settings given by hand, with the same error, and otherwise this fails just if the names that are
then allowed have a bad one among them. What is loaded has the used file as its origin, and each of its
settings is the one given by hand, or the one that is written, or the usual one; only the depth cannot be
given by hand. A written directory is taken from the parent of the path of the file, which for a file that
is given by its name alone is the empty path. -/
theorem load_provenance (reader : SettingsReader) (workspace : Workspace) (given : Option Path) :
    ∃ file, (∀ other, FileUsed workspace given other ↔ other = file) ∧
      (workspace.InPlace → ∀ directory : Location, directory <+: workspace.current →
        (workspace.has (fileIn directory) = true ↔
          (∃ tree, workspace.files.at? (directory ++ [fileName]) = some tree) ∧
            Text.byteLength (fileIn directory) ≤ maxPathBytes) ∧
        (fileIn directory).parent? = some directory.path) ∧
      ((∃ plain, load reader workspace file none = .ok plain) ↔
        ∃ source directory, Writes reader workspace file source directory ∧
          source.Valid reader workspace) ∧
      ∀ overrides : Option Overrides,
        (∀ error, load reader workspace file none = .error error →
          load reader workspace given overrides = .error error) ∧
        (∀ plain, load reader workspace file none = .ok plain →
          ((∃ error, load reader workspace given overrides = .error error) ↔
            ∃ name ∈ (overrides.getD {}).allowed.getD plain.allowed, isName name = false) ∧
          ∀ settings, load reader workspace given overrides = .ok settings →
            settings.defaultDepth = plain.defaultDepth) ∧
        ∀ settings, load reader workspace given overrides = .ok settings →
          ∃ source directory, Writes reader workspace file source directory ∧
            Provenance reader workspace file directory source (overrides.getD {}) settings := by
  have hfile : FileUsed workspace given (given.or (discover workspace)) := fileUsed_iff.mpr rfl
  have hplain : load reader workspace (given.or (discover workspace)) none = base reader workspace given := by
    rw [load_none, base_or_discover]
  refine ⟨given.or (discover workspace), fun other => fileUsed_iff,
    fun hplace directory habove => ?_, ?_, fun overrides => ?_⟩
  · have hnames := (hplace.of_above habove).names
    exact ⟨Workspace.has_fileIn_iff hplace habove, Path.parent?_join_path hnames isFileName_fileName⟩
  · simp only [hplain, base_eq_ok_iff hfile]
    constructor
    · rintro ⟨plain, source, directory, hwrites, hvalid, -⟩
      exact ⟨source, directory, hwrites, hvalid⟩
    · rintro ⟨source, directory, hwrites, hvalid⟩
      obtain ⟨plain, horigins⟩ := exists_provenance hvalid (given.or (discover workspace)) directory
      exact ⟨plain, source, directory, hwrites, hvalid, horigins⟩
  · rw [hplain]
    refine ⟨fun error herror => ?_,
      fun plain hbase => ⟨exists_load_eq_error_iff hbase overrides, ?_⟩, ?_⟩
    · rw [load_eq, herror]
      rfl
    · intro settings hload
      obtain ⟨other, hother, rfl⟩ := exists_base_of_load hload
      obtain rfl := Except.ok.inj (hbase.symm.trans hother)
      rfl
    · intro settings hload
      obtain ⟨plain, hbase, rfl⟩ := exists_base_of_load hload
      obtain ⟨source, directory, hwrites, -, horigins⟩ := (base_eq_ok_iff hfile).mp hbase
      exact ⟨source, directory, hwrites, horigins.override _⟩

/-- In a directory below that of the settings file: a name that is given by hand does not save a file
with a bad one, and spoils a file with a good one. -/
theorem load_provenance_above :
    let wiki (settings : String) : Workspace :=
      { CommandLine.sampleWiki settings with current := ["wiki".toList, "docs".toList] }
    let good := wiki "[macros]\nallowed = [\"toc\"]\n[docs]\nsource_dir = \"docs\"\n"
    let bad := wiki "[macros]\nallowed = [\"a b\"]\n"
    let naming (name : String) : Option Overrides := some { allowed := some [name.toList] }
    let plain : Settings :=
      { allowed := ["toc".toList], sourceDir := "/wiki/docs".toList,
        origin := some "/wiki/wm.toml".toList }
    good.InPlace ∧ good.has (fileIn ["wiki".toList]) = true ∧
      FileUsed good none (some "/wiki/wm.toml".toList) ∧ load .toml good none none = .ok plain ∧
      (∃ error, load .toml good none (naming "a b") = .error error) ∧
      load .toml bad none (naming "toc") = .error (.invalid (.invalidName "a b".toList)) := by
  intro wiki good bad naming plain
  have hnames : ∀ name ∈ ["wiki".toList, "docs".toList], IsFileName name := by decide
  have hplace : good.InPlace := ⟨hnames, _, rfl⟩
  have hused (settings : String)
      (hhas : (wiki settings).has (fileIn ["wiki".toList]) = true)
      (hhasNot : (wiki settings).has (fileIn ["wiki".toList, "docs".toList]) = false) :
      FileUsed (wiki settings) none (some "/wiki/wm.toml".toList) := by
    have habove : ["wiki".toList] <+: (wiki settings).current := ⟨["docs".toList], rfl⟩
    refine .nearest ⟨habove, hhas, fun other hother hlonger => ?_⟩
    obtain rfl : other = ["wiki".toList, "docs".toList] := hother.eq_of_length_le hlonger
    exact hhasNot
  have hgood : FileUsed good none (some "/wiki/wm.toml".toList) :=
    hused _ (by decide +kernel) (by decide +kernel)
  have hbad : FileUsed bad none (some "/wiki/wm.toml".toList) :=
    hused _ (by decide +kernel) (by decide +kernel)
  obtain ⟨file, hfile, hfound, -, hload⟩ := load_provenance .toml good none
  obtain rfl := (hfile _).mp hgood
  obtain ⟨-, hfails, -⟩ := hload (naming "a b")
  obtain ⟨other, hother, -, -, hloadBad⟩ := load_provenance .toml bad none
  obtain rfl := (hother _).mp hbad
  refine ⟨hplace, ?_, hgood, by decide +kernel, ?_, ?_⟩
  · exact (hfound hplace ["wiki".toList] ⟨["docs".toList], rfl⟩).1.mpr ⟨⟨_, rfl⟩, by decide⟩
  · exact (hfails plain (by decide +kernel)).1.mpr ⟨"a b".toList, List.mem_cons_self, by decide⟩
  · exact (hloadBad (naming "toc")).1 _ (by decide +kernel)

/-- A settings file in the current directory, with nothing beside the way to it. -/
def wikiAt (place : Location) : Workspace where
  files := (FileTree.directory [(fileName, .file .empty)]).under place
  current := place
  environment := .empty

lemma hasSettings_wikiAt {place : Location} (hnames : ∀ name ∈ place, IsFileName name) :
    (wikiAt place).HasSettings :=
  ⟨hnames, .empty, FileTree.at?_under _ place [fileName]⟩

/-- A settings file whose path is too long is passed over, and there is no other. -/
lemma fileUsed_wikiAt {place : Location} (hnames : ∀ name ∈ place, IsFileName name)
    (hname : fileName ∉ place) (hlong : maxPathBytes < Text.byteLength (fileIn place)) :
    FileUsed (wikiAt place) none none := by
  refine .nowhere fun directory habove => Bool.eq_false_iff.mpr fun hhas => ?_
  obtain ⟨⟨tree, htree⟩, hshort⟩ :=
    (Workspace.has_fileIn_iff (hasSettings_wikiAt hnames).inPlace habove).mp hhas
  by_cases hhere : directory = place
  · exact Nat.not_le.mpr hlong (hhere ▸ hshort)
  · have hnone := FileTree.at?_under_of_not_mem (.directory [(fileName, .file .empty)]) habove hhere hname
    exact absurd (htree.symm.trans hnone) nofun

/-- By its name the file is read wherever it lies, and then nothing is left of its directory. -/
lemma load_fileName_wikiAt {place : Location} (hnames : ∀ name ∈ place, IsFileName name) :
    load .toml (wikiAt place) (some fileName) none =
      .ok { sourceDir := [], origin := some fileName } := by
  have hsettings := hasSettings_wikiAt hnames
  have hfile : (wikiAt place).files.at? ((wikiAt place).current ++ [fileName]) = some (.file .empty) :=
    FileTree.at?_under _ place [fileName]
  have hread : (wikiAt place).read fileName = .ok [] := by
    rw [Workspace.read, Workspace.node, hsettings.locate_fileName]
    simp only [hfile]
    decide +kernel
  have hsource : SettingsReader.toml.source? [] = some {} := by decide +kernel
  rw [load_none, base, if_pos hsettings.has_fileName, ofFile_of_writes (.file hread hsource rfl)]
  rfl

/-- In a directory whose settings file has a path of 4096 bytes the search finds no file, and the usual
settings are loaded, although the file can be read by its name. A file that is given by its name alone,
here or in any other directory, has the empty path for its directory, which leads nowhere. -/
theorem load_provenance_passedOver :
    let place := Location.deep 28 145
    let deeper := wikiAt place
    let wiki := wikiAt ["wiki".toList]
    let named : Settings := { sourceDir := [], origin := some fileName }
    deeper.HasSettings ∧ Text.byteLength (fileIn place) = 4096 ∧ FileUsed deeper none none ∧
      (∀ reader, load reader deeper none none = .ok (usual deeper)) ∧
      load .toml deeper (some fileName) none = .ok named ∧
      load .toml wiki (some fileName) none = .ok named ∧ wiki.trace [] = .error .notFound := by
  intro place deeper wiki named
  have hnames : ∀ name ∈ place, IsFileName name := Location.isFileName_deep (by decide) (by decide)
  have hname : fileName ∉ place := fun hmem => absurd (List.eq_of_mem_replicate hmem) (by decide)
  have hbytes : Text.byteLength (fileIn place) = 4096 := by
    rw [byteLength_fileIn hnames (Location.deep_ne_nil (by decide) _),
      Location.byteLength_deep (by decide)]
  have hnowhere : FileUsed deeper none none := fileUsed_wikiAt hnames hname (hbytes ▸ by decide)
  refine ⟨hasSettings_wikiAt hnames, hbytes, hnowhere, fun reader => ?_, load_fileName_wikiAt hnames,
    load_fileName_wikiAt (by decide), rfl⟩
  rw [load_none, base, discover_eq hnowhere]

end Settings

end WikiDirectives
