import WikiDirectives.Files.PageFile
import WikiDirectives.Proofs.PathWalk

/-! The directory that belongs to a page, by the name of the page, and where the two lie. -/
namespace WikiDirectives

/-! ## Pieces joined -/

namespace Text

theorem joined_pieces (separator : Char) (s : Text) :
    joined [separator] (pieces separator s) = s := by
  induction s with
  | nil => rfl
  | cons c s ih =>
    obtain ⟨piece, rest, hpieces⟩ := List.exists_cons_of_ne_nil (pieces_ne_nil separator s)
    rw [hpieces] at ih
    by_cases hc : c = separator
    · simp [pieces, hc, hpieces, joined_cons_cons, ih]
    · simp only [pieces, hc, ↓reduceIte, hpieces]
      cases rest with
      | nil => exact congrArg (c :: ·) ih
      | cons next rest => exact congrArg (c :: ·) ih

lemma dropLast_pieces_append (separator : Char) (s : Text) :
    (pieces separator (s ++ [separator])).dropLast = pieces separator s := by
  rw [pieces_append_separator]
  simp [pieces]

end Text

/-! ## The directory part of a path -/

namespace Path

/-- What can stand before the last name of a path: nothing, or what ends with a slash. -/
def IsFront (front : Text) : Prop := front = [] ∨ ∃ body, front = body ++ ['/']

lemma isFront_slash (body : Text) : IsFront (body ++ ['/']) := .inr ⟨body, rfl⟩

/-- Every path is cut at its last slash. -/
theorem exists_front (path : Path) :
    ∃ front name, path = front ++ name ∧ IsFront front ∧ '/' ∉ name := by
  cases hsplit : Text.splitLast? '/' path with
  | none => exact ⟨[], path, rfl, .inl rfl, Text.splitLast?_eq_none_iff.mp hsplit⟩
  | some cut =>
    obtain ⟨rfl, hname⟩ := Text.eq_append_of_splitLast? hsplit
    exact ⟨cut.1 ++ ['/'], cut.2, by simp, isFront_slash _, hname⟩

variable {front name stem : Text}

namespace IsFront

/-- The names on the way to the last one. -/
theorem pieces_append (hfront : IsFront front) (hslash : '/' ∉ name) :
    Text.pieces '/' (front ++ name) = (Text.pieces '/' front).dropLast ++ [name] := by
  rcases hfront with rfl | ⟨body, rfl⟩
  · exact Text.pieces_of_not_mem hslash
  · rw [Text.dropLast_pieces_append, List.append_assoc, List.singleton_append,
      Text.pieces_append_separator, Text.pieces_of_not_mem hslash]

theorem joined_append (hfront : IsFront front) (name : Text) :
    Text.joined ['/'] ((Text.pieces '/' front).dropLast ++ [name]) = front ++ name := by
  rcases hfront with rfl | ⟨body, rfl⟩
  · rfl
  · rw [Text.dropLast_pieces_append,
      Text.joined_append_singleton _ _ (Text.pieces_ne_nil '/' body), Text.joined_pieces]

lemma of_cons {c : Char} (h : IsFront (c :: front)) : IsFront front ∧ (front = [] → c = '/') := by
  obtain h | ⟨body, h⟩ := h
  · simp at h
  · cases body with
    | nil =>
      obtain ⟨rfl, rfl⟩ : c = '/' ∧ front = [] := by simpa using h
      exact ⟨.inl rfl, fun _ => rfl⟩
    | cons d body =>
      obtain ⟨rfl, rfl⟩ : c = d ∧ front = body ++ ['/'] := by simpa using h
      exact ⟨isFront_slash body, by simp⟩

end IsFront

lemma opening_name (hslash : '/' ∉ name) (hvoid : isVoid name = false) :
    opening name = ([], name) := by
  fun_cases opening name <;> simp_all [isVoid]

/-- The opening of a path that goes on to a name lies before that name. -/
theorem opening_append (hfront : IsFront front) :
    ∃ start body, front = start ++ body ∧ IsFront body ∧
      ∀ name, '/' ∉ name → isVoid name = false →
        opening (front ++ name) = (start, body ++ name) := by
  fun_cases opening front with
  | case1 body => exact ⟨['/'], body, rfl, hfront.of_cons.1, fun _ _ _ => rfl⟩
  | case2 => exact absurd (hfront.of_cons.2 rfl) (by decide)
  | case3 body => exact ⟨['.'], '/' :: body, rfl, hfront.of_cons.1, fun _ _ _ => rfl⟩
  | case4 _ hroot _ hhere =>
    refine ⟨[], front, rfl, hfront, fun name hslash hvoid => ?_⟩
    match front with
    | [] => exact opening_name hslash hvoid
    | [c] => exact absurd (hfront.of_cons.2 rfl) fun hc => hroot [] (by rw [hc])
    | c :: d :: rest =>
      have hslash : c ≠ '/' := fun hc => hroot (d :: rest) (by rw [hc])
      have hdot : c = '.' → d ≠ '/' := fun hc hd => hhere rest (by rw [hc, hd])
      rw [List.cons_append, List.cons_append]
      unfold opening
      split <;> simp_all

theorem pieces_append (hfront : IsFront front) (hslash : '/' ∉ name) (hvoid : isVoid name = false) :
    ∃ body, IsFront body ∧ front = (opening (front ++ name)).1 ++ body ∧
      pieces (front ++ name) = (Text.pieces '/' body).dropLast ++ [name] := by
  obtain ⟨start, body, heq, hbody, hopening⟩ := opening_append hfront
  rw [pieces, hopening name hslash hvoid]
  refine ⟨body, hbody, heq, ?_⟩
  rw [hbody.pieces_append hslash, dropVoids_append_singleton _ hvoid]

lemma fileName?_append (hfront : IsFront front) (hslash : '/' ∉ name) (hvoid : isVoid name = false) :
    fileName? (front ++ name) = if name = ['.', '.'] then none else some name := by
  obtain ⟨body, -, -, hpieces⟩ := pieces_append hfront hslash hvoid
  simp [fileName?, hpieces]

theorem upToStem_append (hfront : IsFront front) (hslash : '/' ∉ name) (hvoid : isVoid name = false) :
    upToStem (front ++ name) =
      front ++ if name = ['.', '.'] then name else (splitExtension name).1 := by
  rw [upToStem, stem?, fileName?_append hfront hslash hvoid]
  split_ifs with hup
  · rfl
  · obtain ⟨body, hbody, hstart, hpieces⟩ := pieces_append hfront hslash hvoid
    simp only [Option.map_some, hpieces, List.dropLast_concat, hbody.joined_append]
    rw [← List.append_assoc, ← hstart]

lemma join_name {directory : Path} (hne : directory ≠ []) (hlast : directory.getLast? ≠ some '/')
    (hslash : '/' ∉ name) : directory.join name = directory ++ ['/'] ++ name := by
  have hrelative : isAbsolute name = false := by
    rw [isAbsolute, decide_eq_false_iff_not]
    exact fun hhead => hslash (List.mem_of_head? hhead)
  simp [join, hrelative, hne, hlast]

/-! ## The directory of a page -/

lemma splitExtension_append {extension : Text} (hstem : stem ≠ []) (h : '.' ∉ extension) :
    splitExtension (stem ++ '.' :: extension) = (stem, some extension) := by
  rw [splitExtension, Text.splitLast?_append h]
  cases stem with
  | nil => exact absurd rfl hstem
  | cons c stem => rfl

end Path

namespace PageFile
variable {front stem : Text}

/-- The file name of a page. -/
def pageName (stem : Text) : Text := stem ++ '.' :: pageExtension

/-- How the directory of a page is called. A page whose name has only dots before the extension has the
directory above. -/
def directoryName (stem : Text) : Text :=
  if stem = [] then pageName [] else if stem = ['.'] then ['.', '.'] else stem

lemma getLast?_pageName (stem : Text) : (pageName stem).getLast? = some 'd' := by
  simp [pageName, pageExtension]

lemma isVoid_pageName (stem : Text) : Path.isVoid (pageName stem) = false := by
  have hlast := getLast?_pageName stem
  have hempty : pageName stem ≠ [] := fun h => by simp [h] at hlast
  have hdot : pageName stem ≠ ['.'] := fun h => by simp [h] at hlast
  simp [Path.isVoid, hempty, hdot]

lemma pageName_ne_up (stem : Text) : pageName stem ≠ ['.', '.'] := fun h => by
  have hlast := getLast?_pageName stem
  simp [h] at hlast

lemma slash_not_mem_pageName (h : '/' ∉ stem) : '/' ∉ pageName stem := by
  simp [pageName, pageExtension, h]

lemma pageName_injective : Function.Injective pageName := fun _ _ h => List.append_cancel_right h

theorem isPageName_iff {name : Text} :
    isPageName name = true ↔ ∃ stem, stem ≠ [] ∧ name = pageName stem := by
  rw [isPageName, decide_eq_true_iff]
  constructor
  · intro h
    unfold Path.splitExtension at h
    split at h
    · simp at h
    · simp at h
    · next stem extension hstem hsplit =>
      obtain rfl := Option.some.inj h
      exact ⟨stem, hstem, (Text.eq_append_of_splitLast? hsplit).1⟩
  · rintro ⟨stem, hstem, rfl⟩
    rw [pageName, Path.splitExtension_append hstem (by decide)]

lemma fileName?_page (hfront : Path.IsFront front) (hslash : '/' ∉ stem) :
    Path.fileName? (front ++ pageName stem) = some (pageName stem) := by
  rw [Path.fileName?_append hfront (slash_not_mem_pageName hslash) (isVoid_pageName stem),
    if_neg (pageName_ne_up stem)]

/-- Only the last name of a page's path changes on the way to its directory. -/
theorem dropExtension_page (hfront : Path.IsFront front) (hslash : '/' ∉ stem) :
    Path.dropExtension (front ++ pageName stem) = front ++ directoryName stem := by
  rw [Path.dropExtension, Path.extension?, fileName?_page hfront hslash, Option.bind_some]
  by_cases hstem : stem = []
  · subst hstem
    have hname : Path.splitExtension (pageName []) = (pageName [], none) := by decide
    rw [hname, Path.upToStem_append hfront (by decide) (by decide), hname]
    simp [directoryName, pageName_ne_up]
  · -- The letters go first, then the name is cut at the dot that is left, unless it is `..` by then.
    have hletters : (front ++ pageName stem).take
        ((front ++ pageName stem).length - pageExtension.length) = front ++ (stem ++ ['.']) := by
      have hcut : front ++ pageName stem = front ++ (stem ++ ['.']) ++ pageExtension := by
        simp [pageName]
      rw [hcut, List.length_append, Nat.add_sub_cancel, List.take_left]
    have hvoid : Path.isVoid (stem ++ ['.']) = false := by simp [Path.isVoid, hstem]
    rw [pageName, Path.splitExtension_append hstem (by decide)]
    simp only
    rw [← pageName, hletters, Path.upToStem_append hfront (by simpa using hslash) hvoid,
      Path.splitExtension_append hstem (by simp)]
    by_cases hdot : stem = ['.']
    · simp [hdot, directoryName]
    · have hup : stem ++ ['.'] ≠ ['.', '.'] := fun h => hdot (List.append_cancel_right h)
      simp [hup, directoryName, hstem, hdot]

lemma directoryName_ne_nil (stem : Text) : directoryName stem ≠ [] := by
  unfold directoryName
  split_ifs with hempty hdot
  · simp [pageName]
  · simp
  · exact hempty

lemma slash_not_mem_directoryName (h : '/' ∉ stem) : '/' ∉ directoryName stem := by
  unfold directoryName
  split_ifs
  · decide
  · decide
  · exact h

lemma isVoid_directoryName (stem : Text) : Path.isVoid (directoryName stem) = false := by
  unfold directoryName
  split_ifs with hempty hdot
  · exact isVoid_pageName []
  · decide
  · simp [Path.isVoid, hempty, hdot]

lemma dropExtension_plain (hfront : Path.IsFront front) (hslash : '/' ∉ stem) :
    Path.dropExtension (front ++ pageName stem) ≠ [] ∧
      (Path.dropExtension (front ++ pageName stem)).getLast? ≠ some '/' := by
  have hne := directoryName_ne_nil stem
  rw [dropExtension_page hfront hslash, List.getLast?_append_of_ne_nil _ hne]
  exact ⟨by simp [hne],
    fun hlast => slash_not_mem_directoryName hslash (List.mem_of_getLast? hlast)⟩

/-- A page whose name has only dots, one or two, before the extension. -/
def IsDots (path : Path) : Prop :=
  path.fileName? = some (pageName ['.']) ∨ path.fileName? = some (pageName ['.', '.'])

instance (path : Path) : Decidable (IsDots path) := inferInstanceAs (Decidable (_ ∨ _))

lemma isDots_iff (hfront : Path.IsFront front) (hslash : '/' ∉ stem) :
    IsDots (front ++ pageName stem) ↔ stem = ['.'] ∨ stem = ['.', '.'] := by
  rw [IsDots, fileName?_page hfront hslash, Option.some_inj, Option.some_inj,
    pageName_injective.eq_iff, pageName_injective.eq_iff]

lemma directoryName_eq_up_iff : directoryName stem = ['.', '.'] ↔ stem = ['.'] ∨ stem = ['.', '.'] := by
  unfold directoryName
  split_ifs with hempty hdot
  · subst hempty
    decide
  · simp [hdot]
  · simp [hdot]

end PageFile

/-! ## Where pages and directories lie -/

namespace Workspace
variable {workspace : Workspace} {files : FileTree} {here next : Location} {front name piece : Text}

lemma follow_singleton (files : FileTree) (here : Location) (piece : Text) :
    follow files here [piece] = step files here piece := by
  rw [follow]
  cases step files here piece <;> rfl

lemma exists_directory_of_step (h : step files here piece = .ok next) :
    ∃ entries, files.at? here = some (.directory entries) := by
  unfold step at h
  split at h
  · simp at h
  · simp at h
  · next entries hat => exact ⟨entries, hat⟩

lemma eq_append_of_step (h : step files here piece = .ok next) (hvoid : Path.isVoid piece = false)
    (hup : piece ≠ ['.', '.']) : next = here ++ [piece] := by
  obtain ⟨entries, hat⟩ := exists_directory_of_step h
  simp only [step, hat, hvoid, hup, Bool.false_eq_true, ↓reduceIte] at h
  split_ifs at h
  exact (Except.ok.inj h).symm

lemma step_up (h : step files here piece = .ok next) :
    step files here ['.', '.'] = .ok here.dropLast := by
  obtain ⟨entries, hat⟩ := exists_directory_of_step h
  simp [step, hat, Path.isVoid]

/-- Where the directory part of a path leads. -/
def enter (workspace : Workspace) (front : Text) : Except FileError Location :=
  follow workspace.files (workspace.start front) (Text.pieces '/' front).dropLast

/-- A path leads where its last name leads from its directory part. -/
theorem trace_append (workspace : Workspace) (hfront : Path.IsFront front) (hslash : '/' ∉ name)
    (hne : name ≠ []) :
    workspace.trace (front ++ name) =
      (workspace.enter front).bind fun here => step workspace.files here name := by
  have hstart : workspace.start (front ++ name) = workspace.start front := by
    have habsolute : Path.isAbsolute (front ++ name) = Path.isAbsolute front := by
      cases front with
      | nil =>
        simp only [Path.isAbsolute, List.nil_append, List.head?_nil]
        simpa using fun hhead => hslash (List.mem_of_head? hhead)
      | cons c front => rfl
    rw [start, habsolute, start]
  rw [trace, if_neg (by simp [hne]), hfront.pieces_append hslash, follow_append, hstart, enter]
  simp only [follow_singleton]

lemma enter_slash (workspace : Workspace) {path : Path} (hne : path ≠ []) :
    workspace.enter (path ++ ['/']) = workspace.trace path := by
  obtain ⟨c, rest, rfl⟩ := List.exists_cons_of_ne_nil hne
  rw [enter, Text.dropLast_pieces_append, trace, if_neg (by simp)]
  rfl

lemma trace_of_locate {path : Path} (h : workspace.locate path = .ok here) :
    workspace.trace path = .ok here := by
  unfold locate at h
  split_ifs at h
  exact h

lemma exists_of_list {path : Path} {entries : List (Text × FileTree)}
    (h : workspace.list path = .ok entries) :
    ∃ home, workspace.locate path = .ok home ∧
      workspace.files.at? home = some (.directory entries) := by
  unfold list node at h
  split at h
  · simp at h
  · simp at h
  · next found hnode =>
    obtain rfl := Except.ok.inj h
    split at hnode
    · simp at hnode
    · next home hlocate =>
      split at hnode
      · next tree hat =>
        obtain rfl := Except.ok.inj hnode
        exact ⟨home, hlocate, hat⟩
      · simp at hnode

end Workspace

end WikiDirectives
