import RuntimeAnalyzer.Lib.Walk
import RuntimeAnalyzer.PathOrder
import RuntimeAnalyzer.Process.Program

/-!
# The toolchain next to the executable

What an installed analyzer takes from the directories next to itself: Clang's headers, which the
compiler library finds through `CT_CLANG`, and a C++ runtime to link against. The paths of the
latter are normalized lexically; `shipped_link_arguments_eq` says that they lead where the plain
ones do.
-/

namespace RuntimeAnalyzer

namespace Path

/-- `..` -/
def dotdot : Bytes := [dot, dot]

/-- The steps that a path makes; `.` makes none. -/
def steps (path : Bytes) : List Bytes :=
  (names path).filter (· ≠ [dot])

/-- A path that ended in a directory still does, unless it goes up alone. -/
def separatorAfter (kept : List Bytes) (last : Bytes) : Bytes :=
  if kept ≠ [] && kept.getLastD [] ≠ dotdot && (last = [] || last = [dot] || last = dotdot) then
    [slash]
  else []

/-- `path.lexically_normal()` -/
def lexicallyNormal (path : Bytes) : Bytes :=
  if path = [] then []
  else
    let rooted := startsWith path [slash]
    let kept := Walk.normalize dotdot rooted (steps path)
    let text :=
      (if rooted then [slash] else []) ++ [slash].intercalate kept ++
        separatorAfter kept ((elements path).getLastD [])
    if text = [] then [dot] else text

end Path

open Process (getenv setenv cString)

/-- What the file system holds. -/
structure Files where
  /-- What a directory iterator gives, which is nothing where it fails. -/
  entries : Bytes → List Bytes
  isRegularFile : Bytes → Bool

/-- Points `CT_CLANG` at the executable when it comes with Clang's headers; whether it did, and the
environment it leaves. -/
def useShippedClangHeaders (files : Files) (environ : List Bytes) (executable : Bytes) :
    Bool × List Bytes :=
  let configured := getenv environ (lit "CT_CLANG")
  if executable = [] || configured.getD [] ≠ [] then (false, environ)
  else
    let clangDir :=
      Path.append (Path.append (Path.append (Path.parentPath executable) Path.dotdot) (lit "lib"))
        (lit "clang")
    let holdsHeaders := fun version =>
      files.isRegularFile (Path.append (Path.append version (lit "include")) (lit "stddef.h"))
    if (files.entries clangDir).any holdsHeaders then
      (true, setenv environ (lit "CT_CLANG") (cString executable))
    else (false, environ)

/-- `<exe dir>/../lib`, normalized. -/
def shippedLib (executable : Bytes) : Bytes :=
  Path.lexicallyNormal
    (Path.append (Path.append (Path.parentPath executable) Path.dotdot) (lit "lib"))

/-- The arguments that link a program against the C++ runtime next to the executable. -/
def shippedLinkArguments (files : Files) (executable : Bytes) : List Bytes :=
  if executable = [] then []
  else
    let lib := shippedLib executable
    if !files.isRegularFile (Path.append lib (lit "libstdc++.so")) then []
    else [lit "-L" ++ lib, lit "-Wl,-rpath," ++ lib]

/-! ## Lexical normalization -/

namespace Path

/-- The names of a path that is put together from names. -/
theorem names_intercalate {kept : List Bytes} (hkept : ∀ name ∈ kept, name ≠ [] ∧ slash ∉ name) :
    names ([slash].intercalate kept) = kept := by
  induction kept with
  | nil => rfl
  | cons name kept ih =>
      obtain ⟨hne, hslash⟩ := hkept name List.mem_cons_self
      have hrest := ih fun other hmem => hkept other (List.mem_cons_of_mem name hmem)
      cases kept with
      | nil => simpa using names_name hne hslash
      | cons next kept =>
          rw [List.intercalate_cons_cons, List.append_assoc, List.singleton_append,
            names_append_slash, hrest, names_name hne hslash]
          rfl

theorem name_of_mem_names {path name : Bytes} (h : name ∈ names path) :
    name ≠ [] ∧ slash ∉ name := by
  rw [names, List.mem_filter] at h
  exact ⟨by simpa using h.2, (ListSplit.mem_splitOn h.1).1⟩

theorem name_of_mem_steps {path name : Bytes} (h : name ∈ steps path) :
    name ≠ [] ∧ slash ∉ name ∧ name ≠ [dot] := by
  rw [steps, List.mem_filter] at h
  obtain ⟨hne, hslash⟩ := name_of_mem_names h.1
  exact ⟨hne, hslash, by simpa using h.2⟩

/-- What is left of the steps of a path. -/
def normalSteps (path : Bytes) : List Bytes :=
  Walk.normalize dotdot (startsWith path [slash]) (steps path)

theorem name_of_mem_normal_steps {path name : Bytes} (h : name ∈ normalSteps path) :
    name ≠ [] ∧ slash ∉ name ∧ name ≠ [dot] := by
  rcases Walk.mem_normalize h with hmem | rfl
  · exact name_of_mem_steps hmem
  · decide

theorem names_normal_steps (path : Bytes) :
    names ([slash].intercalate (normalSteps path)) = normalSteps path :=
  names_intercalate fun _ hmem =>
    ⟨(name_of_mem_normal_steps hmem).1, (name_of_mem_normal_steps hmem).2.1⟩

/-- A normalized path is the current directory, or the root and the steps that are left. -/
inductive NormalText (path text : Bytes) : Prop
  | here (hnone : normalSteps path = []) (hrooted : startsWith path [slash] = false)
      (htext : text = [dot]) : NormalText path text
  | rooted {tail : Bytes} (hrooted : startsWith path [slash] = true)
      (htail : tail = [] ∨ tail = [slash])
      (htext : text = slash :: ([slash].intercalate (normalSteps path) ++ tail)) :
      NormalText path text
  | relative {tail : Bytes} (hsome : normalSteps path ≠ [])
      (hrooted : startsWith path [slash] = false) (htail : tail = [] ∨ tail = [slash])
      (htext : text = [slash].intercalate (normalSteps path) ++ tail) : NormalText path text

theorem separator_after_cases (kept : List Bytes) (last : Bytes) :
    separatorAfter kept last = [] ∨ separatorAfter kept last = [slash] := by
  unfold separatorAfter
  split
  · exact .inr rfl
  · exact .inl rfl

theorem normal_text {path : Bytes} (hne : path ≠ []) : NormalText path (lexicallyNormal path) := by
  have htext : lexicallyNormal path =
      let text := (if startsWith path [slash] then [slash] else []) ++
        [slash].intercalate (normalSteps path) ++
          separatorAfter (normalSteps path) ((elements path).getLastD [])
      if text = [] then [dot] else text := by
    rw [lexicallyNormal, if_neg hne]
    rfl
  have hseparator := separator_after_cases (normalSteps path) ((elements path).getLastD [])
  cases hrooted : startsWith path [slash] with
  | true => exact .rooted hrooted hseparator (by simp [htext, hrooted])
  | false =>
      by_cases hnone : normalSteps path = []
      · exact .here hnone hrooted (by simp [htext, hrooted, hnone, separatorAfter])
      · have hbody : [slash].intercalate (normalSteps path) ≠ [] := by
          intro hempty
          rw [← names_normal_steps, hempty] at hnone
          exact hnone rfl
        exact .relative hnone hrooted hseparator (by simp [htext, hrooted, hbody])

/-- The names of a normalized path are the steps left of the path, if there are any. -/
theorem names_lexically_normal {path : Bytes} (hne : path ≠ []) (hsome : normalSteps path ≠ []) :
    names (lexicallyNormal path) = normalSteps path := by
  have htail : ∀ {text tail : Bytes}, tail = [] ∨ tail = [slash] →
      names (text ++ tail) = names text := by
    rintro text tail (rfl | rfl)
    · rw [List.append_nil]
    · exact (names_append_slash text []).trans (List.append_nil _)
  cases normal_text hne with
  | here hnone => exact absurd hnone hsome
  | rooted _ hend htext =>
      rw [htext, ← List.nil_append (slash :: _), names_append_slash, htail hend,
        names_normal_steps]
      rfl
  | relative _ _ hend htext => rw [htext, htail hend, names_normal_steps]

/-- A normalized path starts at the root when the path does. -/
theorem starts_with_slash_lexically_normal {path : Bytes} (hne : path ≠ []) :
    startsWith (lexicallyNormal path) [slash] = startsWith path [slash] := by
  cases normal_text hne with
  | here _ hrooted htext =>
      rw [hrooted, htext]
      decide
  | rooted hrooted _ htext =>
      rw [hrooted, htext]
      simp [startsWith]
  | relative hsome hrooted _ htext =>
      obtain ⟨name, kept, hkept⟩ := List.exists_cons_of_ne_nil hsome
      obtain ⟨hname, hslash, -⟩ :=
        @name_of_mem_normal_steps path name (hkept ▸ List.mem_cons_self)
      obtain ⟨byte, rest, rfl⟩ := List.exists_cons_of_ne_nil hname
      have hbyte : slash ≠ byte := fun h => hslash (h ▸ List.mem_cons_self)
      rw [hrooted, htext, hkept]
      cases kept <;> simp [startsWith, List.isPrefixOf, hbyte, List.intercalate_cons_cons]

/-! ## A path with a name more -/

theorem names_append {name : Bytes} (directory : Bytes) (hne : name ≠ []) (hslash : slash ∉ name) :
    names (append directory name) = names directory ++ [name] := by
  by_cases hempty : directory = []
  · subst hempty
    rw [append_of_relative _ (starts_with_slash_eq_false hslash)]
    exact names_name hne hslash
  · obtain ⟨before, hbefore, hnames⟩ := append_eq_slash hempty hslash
    rw [hbefore, names_append_slash, hnames, names_name hne hslash]

theorem steps_append {name : Bytes} (directory : Bytes) (hne : name ≠ []) (hslash : slash ∉ name)
    (hdot : name ≠ [dot]) : steps (append directory name) = steps directory ++ [name] := by
  rw [steps, names_append directory hne hslash, List.filter_append]
  simp [steps, hdot]

theorem starts_with_slash_append_name {name : Bytes} (directory : Bytes) (hslash : slash ∉ name) :
    startsWith (append directory name) [slash] = startsWith directory [slash] := by
  by_cases hempty : directory = []
  · subst hempty
    rw [append_of_relative _ (starts_with_slash_eq_false hslash)]
    exact starts_with_slash_eq_false hslash
  · exact starts_with_slash_append hempty hslash

theorem starts_with_slash_of_prefix {head path : Bytes} (hne : head ≠ []) (h : head <+: path) :
    startsWith head [slash] = startsWith path [slash] := by
  obtain ⟨byte, rest, rfl⟩ := List.exists_cons_of_ne_nil hne
  obtain ⟨more, rfl⟩ := h
  simp [startsWith, List.isPrefixOf]

/-- The directory of a path starts at the root when the path does. -/
theorem starts_with_slash_parent_path (path : Bytes) :
    startsWith (parentPath path) [slash] = startsWith path [slash] := by
  unfold parentPath
  split
  · rfl
  · cases hfind : ListSearch.rfind [slash] path with
    | none =>
        have hslash : slash ∉ path := by
          rw [← List.singleton_infix_iff]
          exact ListSearch.rfind_eq_none_iff.mp hfind
        simp only [filename, hfind]
        rw [starts_with_slash_eq_false hslash]
        simp [startsWith]
    | some pos =>
        obtain ⟨hle, hpre, -⟩ := ListSearch.rfind_eq_some_iff.mp hfind
        have hlength := ListSearch.rfind_add_length_le hfind
        rw [List.length_singleton] at hlength
        have hcut : path.length - (filename path).length = pos + 1 := by
          simp only [filename, hfind, List.length_drop]
          omega
        have hdirectory : path.take (pos + 1) ≠ [] := by
          rw [ne_eq, List.take_eq_nil_iff]
          rintro (hzero | rfl)
          · omega
          · simp at hlength
        have hhead : path.take (pos + 1) <+: path := List.take_prefix _ _
        rw [hcut]
        by_cases hparent : (path.take (pos + 1)).rdropWhile (· = slash) = []
        · -- The directory is the root, however it is written.
          have hroot : startsWith (path.take (pos + 1)) [slash] = true := by
            have hall := List.rdropWhile_eq_nil_iff.mp hparent
            obtain ⟨byte, rest, hbytes⟩ := List.exists_cons_of_ne_nil hdirectory
            have hbyte := hall byte (hbytes ▸ List.mem_cons_self)
            rw [hbytes, show byte = slash by simpa using hbyte]
            simp [startsWith, List.isPrefixOf]
          rw [← starts_with_slash_of_prefix hdirectory hhead, hroot]
          simp [hparent, hdirectory, startsWith, List.isPrefixOf]
        · simp only [hparent, decide_false, Bool.false_and, Bool.false_eq_true, if_false]
          exact starts_with_slash_of_prefix hparent
            ((List.rdropWhile_prefix _ _).trans hhead)

end Path

/-! ## The directory of the libraries -/

/-- A directory is the `lib` in the parent of the executable's directory, and its path names no
directory that is left again. -/
structure NextTo (executable lib : Bytes) : Prop where
  rooted : startsWith lib [slash] = startsWith executable [slash]
  normal : Walk.Normal Path.dotdot (startsWith executable [slash]) (Path.names lib)
  plain : [dot] ∉ Path.names lib
  leads : ∀ place, (startsWith executable [slash] = true → place = []) →
    Walk.walk Path.dotdot place (Path.names lib) =
      lit "lib" :: (Walk.walk Path.dotdot place (Path.steps (Path.parentPath executable))).tail

theorem next_to_shipped_lib (executable : Bytes) : NextTo executable (shippedLib executable) := by
  have hup : Path.dotdot ≠ [] ∧ slash ∉ Path.dotdot ∧ Path.dotdot ≠ [dot] := by decide
  have hlib : lit "lib" ≠ [] ∧ slash ∉ lit "lib" ∧ lit "lib" ≠ [dot] ∧
      lit "lib" ≠ Path.dotdot := by decide
  have hrooted : startsWith (Path.append (Path.append (Path.parentPath executable) Path.dotdot)
      (lit "lib")) [slash] = startsWith executable [slash] := by
    rw [Path.starts_with_slash_append_name _ hlib.2.1,
      Path.starts_with_slash_append_name _ hup.2.1, Path.starts_with_slash_parent_path]
  have hsteps : Path.steps (Path.append (Path.append (Path.parentPath executable) Path.dotdot)
      (lit "lib")) = Path.steps (Path.parentPath executable) ++ [Path.dotdot] ++ [lit "lib"] := by
    rw [Path.steps_append _ hlib.1 hlib.2.1 hlib.2.2.1,
      Path.steps_append _ hup.1 hup.2.1 hup.2.2]
  have hne : Path.append (Path.append (Path.parentPath executable) Path.dotdot) (lit "lib") ≠
      [] := by
    intro hempty
    rw [hempty] at hsteps
    simp [Path.steps, Path.names] at hsteps
  have hnormal : Path.normalSteps
      (Path.append (Path.append (Path.parentPath executable) Path.dotdot) (lit "lib")) =
        Walk.normalize Path.dotdot (startsWith executable [slash])
          (Path.steps (Path.parentPath executable) ++ [Path.dotdot] ++ [lit "lib"]) := by
    rw [Path.normalSteps, hrooted, hsteps]
  have hnames : Path.names (shippedLib executable) = _ :=
    (Path.names_lexically_normal hne (by
      rw [hnormal, Walk.normalize_concat _ hlib.2.2.2]
      simp)).trans hnormal
  refine ⟨?_, ?_, ?_, fun place hplace => ?_⟩
  · exact (Path.starts_with_slash_lexically_normal hne).trans hrooted
  · rw [hnames]
    exact Walk.normal_normalize _ _ _
  · rw [hnames, ← hnormal]
    exact fun hmem => (Path.name_of_mem_normal_steps hmem).2.2 rfl
  · rw [hnames, Walk.walk_normalize hplace, Walk.walk_append, Walk.walk_append]
    simp [Walk.walk, Walk.step, hlib.2.2.2]

/-- A program is linked against the C++ runtime in the `lib` next to the executable's directory,
when there is one, by a path that holds without the executable's directory. -/
theorem shipped_link_arguments_eq (files : Files) {executable : Bytes} (hne : executable ≠ []) :
    ∃ lib, NextTo executable lib ∧
      shippedLinkArguments files executable =
        if files.isRegularFile (Path.append lib (lit "libstdc++.so")) then
          [lit "-L" ++ lib, lit "-Wl,-rpath," ++ lib]
        else [] := by
  refine ⟨shippedLib executable, next_to_shipped_lib executable, ?_⟩
  rw [shippedLinkArguments, if_neg hne]
  by_cases hholds : files.isRegularFile (Path.append (shippedLib executable) (lit "libstdc++.so"))
  · simp [hholds]
  · simp [hholds]

/-- An analyzer that is installed with its C++ runtime. -/
def installed : Files where
  entries _ := []
  isRegularFile path := path = lit "/opt/ct/lib/libstdc++.so"

theorem shipped_link_arguments_installed :
    (∃ lib, NextTo (lit "/opt/ct/bin/runtime-analyzer") lib ∧
      shippedLinkArguments installed (lit "/opt/ct/bin/runtime-analyzer") =
        if installed.isRegularFile (Path.append lib (lit "libstdc++.so")) then
          [lit "-L" ++ lib, lit "-Wl,-rpath," ++ lib]
        else []) ∧
      shippedLinkArguments installed (lit "/opt/ct/bin/runtime-analyzer") =
        [lit "-L/opt/ct/lib", lit "-Wl,-rpath,/opt/ct/lib"] :=
  ⟨shipped_link_arguments_eq installed (by decide), by decide +kernel⟩

/-! ## The headers -/

/-- Of the environment, at most `CT_CLANG` changes, and only to the executable. -/
theorem getenv_use_shipped_clang_headers (files : Files) (environ : List Bytes)
    (executable : Bytes) {name : Bytes} (hname : equals ∉ name) :
    getenv (useShippedClangHeaders files environ executable).2 name =
      if (useShippedClangHeaders files environ executable).1 = true ∧ name = lit "CT_CLANG" then
        some (cString executable)
      else getenv environ name := by
  have hclang : equals ∉ lit "CT_CLANG" := by decide
  have hset : setenv environ (lit "CT_CLANG") (cString executable) =
      Environ.set equals (lit "CT_CLANG") (cString executable) environ := rfl
  unfold useShippedClangHeaders
  dsimp only
  split
  · simp
  · split
    · by_cases hsame : name = lit "CT_CLANG"
      · rw [hset, hsame]
        simpa [getenv] using Environ.get_set_self environ (lit "CT_CLANG") (cString executable)
      · rw [hset, if_neg (by simp [hsame])]
        exact Environ.get_set_other _ hclang hname (Ne.symm hsame) environ
    · simp

end RuntimeAnalyzer
