import RuntimeAnalyzer.Discovery

/-!
# The files behind the paths of a batch

A tree of files without links, and the paths that lead to them. What a batch finds under its
directories are paths (`Discovery`), several of which may lead to one file:
`analyzed_once_iff` says when each file is still analyzed once.
-/

namespace RuntimeAnalyzer

/-- The names that lead to a file from the root. -/
abbrev Location := List Bytes

inductive FileKind
  | directory
  | regular
  | other
  deriving DecidableEq, Repr

/-- The bytes can name a file in a directory. -/
structure IsName (name : Bytes) : Prop where
  ne_nil : name ≠ []
  no_slash : slash ∉ name
  ne_dot : name ≠ [dot]
  ne_dots : name ≠ [dot, dot]

instance (name : Bytes) : Decidable (IsName name) :=
  decidable_of_iff (name ≠ [] ∧ slash ∉ name ∧ name ≠ [dot] ∧ name ≠ [dot, dot])
    ⟨fun ⟨hne, hslash, hdot, hdots⟩ => ⟨hne, hslash, hdot, hdots⟩,
      fun h => ⟨h.ne_nil, h.no_slash, h.ne_dot, h.ne_dots⟩⟩

/-- A tree of files without links. The root is not listed. -/
structure FileTree where
  files : List (Location × FileKind)
  workingDirectory : Location
  named : ∀ file ∈ files, file.1 ≠ [] ∧ ∀ name ∈ file.1, IsName name
  distinct : (files.map (·.1)).Nodup
  parents : ∀ file ∈ files, file.1.dropLast = [] ∨ (file.1.dropLast, .directory) ∈ files
  working : workingDirectory = [] ∨ (workingDirectory, .directory) ∈ files

namespace FileTree

variable (tree : FileTree)

def isDirectory (location : Location) : Bool :=
  location = [] || tree.files.contains (location, .directory)

/-- There is a file of some kind at the location. -/
def holds (location : Location) : Bool :=
  location = [] || (tree.files.map (·.1)).contains location

/-! ## Paths -/

/-- Where one element of a path leads from a location, which must be a directory. -/
def step (location : Location) (element : Bytes) : Option Location :=
  if !tree.isDirectory location then none
  else if element = [] || element = [dot] then some location
  else if element = [dot, dot] then some location.dropLast
  else if tree.holds (location ++ [element]) then some (location ++ [element])
  else none

/-- Where the elements of a path start. -/
def start (path : Bytes) : Location :=
  if startsWith path [slash] then [] else tree.workingDirectory

/-- The file that a path leads to. -/
def resolve (path : Bytes) : Option Location :=
  if path = [] then none
  else (Path.elements path).foldlM tree.step (tree.start path)

/-- The entries below a directory: the path of each, and whether it is a regular file. -/
def below (directory : Bytes) (location : Location) : List (Bytes × Bool) :=
  tree.files.filterMap fun file =>
    if location.isPrefixOf file.1 && location ≠ file.1 then
      some (Path.descend directory (file.1.drop location.length), file.2 = .regular)
    else none

/-- The tools of a batch see the tree in the listed directories, and enumerate each in some
order. -/
structure SeenBy (tools : BatchTools) (directories : List Bytes) : Prop where
  pathExists : ∀ directory ∈ directories,
    tools.pathExists directory = (tree.resolve directory).isSome
  isDirectory : ∀ directory ∈ directories,
    tools.isDirectory directory = (tree.resolve directory).any tree.isDirectory
  entries : ∀ directory ∈ directories, ∀ location, tree.resolve directory = some location →
    tree.isDirectory location = true →
    (tools.scan directory).entries.Perm (tree.below directory location)
  error : ∀ directory ∈ directories, (tools.scan directory).error = none

/-- The tools that see the tree and enumerate it in its own order. -/
def toolsOf (tools : BatchTools) : BatchTools :=
  { tools with
    pathExists := fun directory => (tree.resolve directory).isSome
    isDirectory := fun directory => (tree.resolve directory).any tree.isDirectory
    scan := fun directory =>
      { entries := (tree.resolve directory).elim [] (tree.below directory) } }

variable {tree}

theorem seen_by_tools_of (tools : BatchTools) (directories : List Bytes) :
    tree.SeenBy (tree.toolsOf tools) directories where
  pathExists _ _ := rfl
  isDirectory _ _ := rfl
  entries directory _ location hresolve _ := by
    show List.Perm ((tree.resolve directory).elim [] (tree.below directory)) _
    rw [hresolve]
    exact List.Perm.refl _
  error _ _ := rfl

/-! ## What lies below a location -/

theorem is_directory_iff {location : Location} :
    tree.isDirectory location = true ↔
      location = [] ∨ (location, FileKind.directory) ∈ tree.files := by
  simp [isDirectory]

theorem holds_iff {location : Location} :
    tree.holds location = true ↔ location = [] ∨ ∃ kind, (location, kind) ∈ tree.files := by
  simp [holds]

/-- Whatever has a file below it is a directory. -/
theorem is_directory_of_below {location names : Location} (hne : names ≠ [])
    (h : tree.holds (location ++ names) = true) : tree.isDirectory location = true := by
  induction names using List.reverseRecOn with
  | nil => exact absurd rfl hne
  | append_singleton before name ih =>
      obtain hroot | ⟨kind, hmem⟩ := holds_iff.mp h
      · simp at hroot
      · have hparent := tree.parents _ hmem
        rw [← List.append_assoc, List.dropLast_concat, ← is_directory_iff] at hparent
        by_cases hbefore : before = []
        · rwa [hbefore, List.append_nil] at hparent
        · refine ih hbefore (holds_iff.mpr ?_)
          exact (is_directory_iff.mp hparent).imp id fun hmem => ⟨_, hmem⟩

theorem is_name_of_holds {location : Location} (h : tree.holds location = true) {name : Bytes}
    (hname : name ∈ location) : IsName name := by
  obtain rfl | ⟨kind, hmem⟩ := holds_iff.mp h
  · cases hname
  · exact (tree.named _ hmem).2 name hname

theorem valid_names {location names : Location} (h : tree.holds (location ++ names) = true) :
    ∀ name ∈ names, name ≠ [] ∧ slash ∉ name := by
  intro name hmem
  have hname := is_name_of_holds h (List.mem_append_right location hmem)
  exact ⟨hname.ne_nil, hname.no_slash⟩

/-- Following names below a location. -/
theorem follow_names {location : Location} (names : Location)
    (h : tree.holds (location ++ names) = true) :
    names.foldlM tree.step location = some (location ++ names) := by
  induction names generalizing location with
  | nil => simp
  | cons name names ih =>
      have hdirectory : tree.isDirectory location = true := is_directory_of_below (by simp) h
      have hname : IsName name := is_name_of_holds h (by simp)
      rw [List.append_cons] at h
      have hholds : tree.holds (location ++ [name]) = true := by
        by_cases hlast : names = []
        · rwa [hlast, List.append_nil] at h
        · exact holds_iff.mpr
            ((is_directory_iff.mp (is_directory_of_below hlast h)).imp id fun hmem => ⟨_, hmem⟩)
      have hstep : tree.step location name = some (location ++ [name]) := by
        simp [step, hdirectory, hname.ne_nil, hname.ne_dot, hname.ne_dots, hholds]
      rw [List.foldlM_cons, hstep, List.append_cons location name names]
      exact ih h

/-! ## Where paths lead -/

theorem resolve_ne_nil {path : Bytes} {location : Location}
    (h : tree.resolve path = some location) : path ≠ [] := by
  rintro rfl
  cases h

/-- A final separator only asks for a directory. -/
theorem follow_path_names {path : Bytes} {location : Location}
    (h : tree.resolve path = some location) :
    (Path.names path).foldlM tree.step (tree.start path) = some location := by
  rw [resolve, if_neg (resolve_ne_nil h)] at h
  rcases Path.elements_eq_names path with hsame | hslash
  · rwa [hsame] at h
  · rw [hslash, List.foldlM_append] at h
    obtain ⟨reached, hreached, hlast⟩ := Option.bind_eq_some_iff.mp h
    rw [hreached]
    have hstep : tree.step reached [] = some location := by
      simpa using hlast
    unfold step at hstep
    split at hstep
    · cases hstep
    · exact hstep

/-- The entry below a directory leads to the file below its location. -/
theorem resolve_descend {directory : Bytes} {location names : Location}
    (h : tree.resolve directory = some location) (hne : names ≠ [])
    (hholds : tree.holds (location ++ names) = true) :
    tree.resolve (Path.descend directory names) = some (location ++ names) := by
  have hdirectory := resolve_ne_nil h
  have hnames := valid_names hholds
  obtain ⟨hpath, -, hroot⟩ := Path.descend_shape hdirectory names hnames
  have hstart : tree.start (Path.descend directory names) = tree.start directory := by
    rw [start, start, hroot]
  rw [resolve, if_neg hpath, Path.elements_descend hdirectory hne hnames, hstart,
    List.foldlM_append, follow_path_names h]
  exact follow_names names hholds

/-- Equal paths lead to one file. -/
theorem resolve_of_equal {path path' : Bytes} (hne : path ≠ []) (hne' : path' ≠ [])
    (h : Path.equal path path' = true) : tree.resolve path = tree.resolve path' := by
  obtain ⟨hroot, helements⟩ := Path.equal_iff.mp h
  rw [resolve, if_neg hne, resolve, if_neg hne', helements, start, hroot, start]

/-! ## What a batch finds in the tree -/

theorem mem_below_iff {directory : Bytes} {location : Location} {entry : Bytes × Bool} :
    entry ∈ tree.below directory location ↔
      ∃ names kind, names ≠ [] ∧ (location ++ names, kind) ∈ tree.files ∧
        entry = (Path.descend directory names, decide (kind = FileKind.regular)) := by
  simp only [below, List.mem_filterMap]
  constructor
  · rintro ⟨⟨file, kind⟩, hmem, hentry⟩
    split at hentry
    · rename_i hbelow
      simp only [Bool.and_eq_true, List.isPrefixOf_iff_prefix, decide_eq_true_eq] at hbelow
      obtain ⟨⟨names, rfl⟩, hproper⟩ := hbelow
      refine ⟨names, kind, fun heq => hproper (by simp [heq]), hmem, ?_⟩
      simpa using hentry.symm
    · cases hentry
  · rintro ⟨names, kind, hne, hmem, rfl⟩
    refine ⟨(location ++ names, kind), hmem, ?_⟩
    simp [hne, List.isPrefixOf_iff_prefix.mpr (List.prefix_append location names)]

/-- The file is a source. -/
structure IsSource (tree : FileTree) (file : Location) : Prop where
  regular : (file, FileKind.regular) ∈ tree.files
  source : isSourceFile (file.getLastD []) = true

/-- The file is found from a directory, by names that lead to it. -/
structure Leads (tree : FileTree) (directories : List Bytes) (path : Bytes) (file : Location) :
    Prop where
  source : tree.IsSource file
  entry : ∃ directory ∈ directories, ∃ location names, names ≠ [] ∧
    tree.resolve directory = some location ∧ file = location ++ names ∧
    path = Path.descend directory names

theorem is_source_file_descend {directory : Bytes} {location names : Location}
    (hdirectory : directory ≠ []) (hne : names ≠ [])
    (hholds : tree.holds (location ++ names) = true) :
    isSourceFile (Path.descend directory names) =
      isSourceFile ((location ++ names).getLastD []) := by
  obtain ⟨before, name, rfl⟩ := List.eq_nil_or_concat' names |>.resolve_left hne
  have hnames := valid_names hholds
  have hname : Path.filename name = name := Path.filename_of_not_mem (hnames name (by simp)).2
  have hlast : (location ++ (before ++ [name])).getLastD [] = name := by
    rw [← List.append_assoc]
    simp
  rw [hlast]
  simp only [isSourceFile, Path.extension, Path.filename_descend hdirectory hnames, hname]

theorem Leads.holds {directories : List Bytes} {path : Bytes} {file : Location}
    (h : tree.Leads directories path file) : tree.holds file = true :=
  holds_iff.mpr (Or.inr ⟨_, h.source.regular⟩)

theorem Leads.resolve {directories : List Bytes} {path : Bytes} {file : Location}
    (h : tree.Leads directories path file) : tree.resolve path = some file := by
  have hholds := h.holds
  obtain ⟨-, directory, -, location, names, hne, hresolve, rfl, rfl⟩ := h
  exact resolve_descend hresolve hne hholds

/-- A batch finds the paths that lead to the sources below its directories. -/
theorem is_found_iff {tools : BatchTools} {directories : List Bytes}
    (hseen : tree.SeenBy tools directories) {path : Bytes} :
    IsFound tools directories path ↔ ∃ file, tree.Leads directories path file := by
  constructor
  · rintro ⟨directory, hmem, -, hdir, hentry, hsource⟩
    rw [hseen.isDirectory directory hmem, Option.any_eq_true] at hdir
    obtain ⟨location, hresolve, hdirectory⟩ := hdir
    rw [(hseen.entries directory hmem location hresolve hdirectory).mem_iff,
      mem_below_iff] at hentry
    obtain ⟨names, kind, hne, hfile, heq⟩ := hentry
    obtain ⟨rfl, hkind⟩ := Prod.mk.inj heq
    obtain rfl : kind = FileKind.regular := of_decide_eq_true hkind.symm
    refine ⟨location ++ names, ⟨hfile, ?_⟩,
      ⟨directory, hmem, location, names, hne, hresolve, rfl, rfl⟩⟩
    rwa [is_source_file_descend (resolve_ne_nil hresolve) hne
      (holds_iff.mpr (Or.inr ⟨_, hfile⟩))] at hsource
  · rintro ⟨file, h⟩
    have hholds := h.holds
    obtain ⟨⟨hfile, hsource⟩, directory, hmem, location, names, hne, hresolve, rfl, rfl⟩ := h
    have hdirectory := is_directory_of_below hne hholds
    refine ⟨directory, hmem, ?_, ?_, ?_, ?_⟩
    · rw [hseen.pathExists directory hmem, hresolve]
      rfl
    · rw [hseen.isDirectory directory hmem, hresolve]
      exact hdirectory
    · rw [(hseen.entries directory hmem location hresolve hdirectory).mem_iff, mem_below_iff]
      exact ⟨names, .regular, hne, hfile, rfl⟩
    · rwa [is_source_file_descend (resolve_ne_nil hresolve) hne hholds]

/-! ## Files analyzed once -/

/-- The file is below a listed directory. -/
def Under (tree : FileTree) (directories : List Bytes) (file : Location) : Prop :=
  ∃ directory ∈ directories, ∃ location names, names ≠ [] ∧
    tree.resolve directory = some location ∧ file = location ++ names

/-- Each source below a listed directory is the source of exactly one test. -/
def AnalyzedOnce (tree : FileTree) (tools : BatchTools) (options : AnalyzerOptions) : Prop :=
  ∀ file, tree.IsSource file → tree.Under options.testDirectories file →
    (runBatch tools options).tests.countP (fun test => tree.resolve test.sourcePath = some file) = 1

/-- A directory that lies in another listed one, or is the same, is spelled as the other is with the
names between them appended, if there are sources below it. Separators may be repeated. -/
def SpelledAlike (tree : FileTree) (directories : List Bytes) : Prop :=
  ∀ outer ∈ directories, ∀ inner ∈ directories, ∀ location between names,
    tree.resolve outer = some location → tree.resolve inner = some (location ++ between) →
    names ≠ [] → tree.IsSource (location ++ between ++ names) →
    startsWith inner [slash] = startsWith outer [slash] ∧
      Path.names inner = Path.names outer ++ between

/-- Entries of two directories are equal when the directories' spellings make up for the names. -/
theorem equal_descend_iff {directory directory' : Bytes}
    {location location' names names' : Location}
    (hdirectory : directory ≠ []) (hdirectory' : directory' ≠ []) (hne : names ≠ [])
    (hne' : names' ≠ []) (hholds : tree.holds (location ++ names) = true)
    (hholds' : tree.holds (location' ++ names') = true) :
    Path.equal (Path.descend directory names) (Path.descend directory' names') = true ↔
      startsWith directory [slash] = startsWith directory' [slash] ∧
        Path.names directory ++ names = Path.names directory' ++ names' := by
  have hvalid := valid_names hholds
  have hvalid' := valid_names hholds'
  rw [Path.equal_iff, (Path.descend_shape hdirectory names hvalid).2.2,
    (Path.descend_shape hdirectory' names' hvalid').2.2,
    Path.elements_descend hdirectory hne hvalid, Path.elements_descend hdirectory' hne' hvalid']

/-- Directories are spelled alike exactly when the paths that lead to one file are equal. -/
theorem spelled_alike_iff {directories : List Bytes} :
    tree.SpelledAlike directories ↔
      ∀ file path path', tree.Leads directories path file → tree.Leads directories path' file →
        Path.equal path path' = true := by
  constructor
  · intro h file path path' hleads hleads'
    have hsource := hleads.source
    have hholds := hleads.holds
    obtain ⟨-, outer, houter, location, names, hne, hresolve, rfl, rfl⟩ := hleads
    obtain ⟨-, inner, hinner, location', names', hne', hresolve', heq, rfl⟩ := hleads'
    rw [equal_descend_iff (resolve_ne_nil hresolve) (resolve_ne_nil hresolve') hne hne' hholds
      (heq ▸ hholds)]
    -- One of the directories lies in the other.
    rcases List.append_eq_append_iff.mp heq with ⟨between, rfl, rfl⟩ | ⟨between, rfl, rfl⟩
    · rw [← List.append_assoc] at hsource
      obtain ⟨hroot, hspelled⟩ :=
        h outer houter inner hinner location between names' hresolve hresolve' hne' hsource
      exact ⟨hroot.symm, by rw [hspelled, List.append_assoc]⟩
    · obtain ⟨hroot, hspelled⟩ :=
        h inner hinner outer houter location' between names hresolve' hresolve hne hsource
      exact ⟨hroot, by rw [hspelled, List.append_assoc]⟩
  · intro h outer houter inner hinner location between names hresolve hresolve' hne hsource
    have hleads : tree.Leads directories (Path.descend outer (between ++ names))
        (location ++ between ++ names) :=
      ⟨hsource, outer, houter, location, between ++ names, by simp [hne], hresolve,
        List.append_assoc _ _ _, rfl⟩
    have hleads' : tree.Leads directories (Path.descend inner names)
        (location ++ between ++ names) :=
      ⟨hsource, inner, hinner, location ++ between, names, hne, hresolve', rfl, rfl⟩
    have hholds := hleads.holds
    have hequal := h _ _ _ hleads hleads'
    have hholds' : tree.holds (location ++ (between ++ names)) = true := by
      rwa [← List.append_assoc]
    rw [equal_descend_iff (resolve_ne_nil hresolve) (resolve_ne_nil hresolve') (by simp [hne]) hne
      hholds' hholds, ← List.append_assoc] at hequal
    exact ⟨hequal.1.symm, (List.append_cancel_right hequal.2).symm⟩

/-- A source of the batch that leads to a file does so from a listed directory. -/
theorem leads_of_source {tools : BatchTools} {directories : List Bytes}
    (hseen : tree.SeenBy tools directories) {source : Bytes} {file : Location}
    (hmem : source ∈ (discoverSourceFiles tools directories).1)
    (hresolve : tree.resolve source = some file) : tree.Leads directories source file := by
  obtain ⟨other, h⟩ := (is_found_iff hseen).mp (found_of_mem hmem)
  have heq := h.resolve.symm.trans hresolve
  rw [Option.some.injEq] at heq
  exact heq ▸ h

/-- What leads to a file from a listed directory is a source of the batch, or equal to one. -/
theorem exists_source_leading {tools : BatchTools} {directories : List Bytes}
    (hseen : tree.SeenBy tools directories) {path : Bytes} {file : Location}
    (h : tree.Leads directories path file) :
    ∃ source ∈ (discoverSourceFiles tools directories).1,
      tree.resolve source = some file ∧ Path.equal source path = true := by
  obtain ⟨source, hmem, hequal⟩ := exists_source_of_found ((is_found_iff hseen).mpr ⟨file, h⟩)
  obtain ⟨other, hother⟩ := (is_found_iff hseen).mp (found_of_mem hmem)
  refine ⟨source, hmem, ?_, hequal⟩
  rw [resolve_of_equal (resolve_ne_nil hother.resolve) (resolve_ne_nil h.resolve) hequal, h.resolve]

/-- Each source below the listed directories is analyzed once exactly when directories that share
sources are spelled alike. -/
theorem analyzed_once_iff (tree : FileTree) (tools : BatchTools) (options : AnalyzerOptions)
    (hseen : tree.SeenBy tools options.testDirectories)
    (hallowed : (hasCompileOnlyAction options.compilerArgs && options.runProgram) = false)
    (hcreated : tools.createDirectories options.outputDirectory = none) :
    tree.AnalyzedOnce tools options ↔ tree.SpelledAlike options.testDirectories := by
  have hnodup : (discoverSourceFiles tools options.testDirectories).1.Nodup :=
    SortUnique.nodup_sort_unique Path.total_preorder_le _
  have hcount : ∀ file,
      (runBatch tools options).tests.countP (fun test => tree.resolve test.sourcePath = some file) =
        (discoverSourceFiles tools options.testDirectories).1.countP
          (fun source => tree.resolve source = some file) := fun file => by
    rw [← run_batch_sources hallowed hcreated, List.countP_map]
    rfl
  have hunder : ∀ {path file}, tree.Leads options.testDirectories path file →
      tree.Under options.testDirectories file := by
    rintro path file ⟨-, directory, hmem, location, names, hne, hresolve, hfile, -⟩
    exact ⟨directory, hmem, location, names, hne, hresolve, hfile⟩
  rw [spelled_alike_iff]
  constructor
  · intro h file path path' hleads hleads'
    have hone := h file hleads.source (hunder hleads)
    rw [hcount, SortUnique.count_eq_one_iff hnodup] at hone
    obtain ⟨only, -, -, hunique⟩ := hone
    obtain ⟨source, hmem, hresolve, hequal⟩ := exists_source_leading hseen hleads
    obtain ⟨source', hmem', hresolve', hequal'⟩ := exists_source_leading hseen hleads'
    rw [hunique source hmem (by simp [hresolve]), Path.equal_iff] at hequal
    rw [hunique source' hmem' (by simp [hresolve']), Path.equal_iff] at hequal'
    exact Path.equal_iff.mpr ⟨hequal.1.symm.trans hequal'.1, hequal.2.symm.trans hequal'.2⟩
  · intro h file hsource ⟨directory, hdirectory, location, names, hne, hresolve, hfile⟩
    have hleads : tree.Leads options.testDirectories (Path.descend directory names) file :=
      ⟨hsource, directory, hdirectory, location, names, hne, hresolve, hfile, rfl⟩
    obtain ⟨source, hmem, hsame, -⟩ := exists_source_leading hseen hleads
    rw [hcount, SortUnique.count_eq_one_iff hnodup]
    refine ⟨source, hmem, by simp [hsame], fun other hother hleading => ?_⟩
    exact source_eq_of_equal hother hmem (h file other source
      (leads_of_source hseen hother (of_decide_eq_true hleading))
      (leads_of_source hseen hmem hsame))

/-- A directory with one source, in the working directory. -/
def oneSourceTree : FileTree where
  files := [([lit "test"], .directory), ([lit "test", lit "x.c"], .regular)]
  workingDirectory := []
  named := by decide
  distinct := by decide
  parents := by decide
  working := by decide

/-- The directory listed twice, once with a final separator. -/
theorem analyzed_once_repeated :
    oneSourceTree.AnalyzedOnce (oneSourceTree.toolsOf oneSource)
      { testDirectories := [lit "test", lit "test/"] } := by
  refine (analyzed_once_iff _ _ _ (seen_by_tools_of _ _) (by decide) rfl).mpr ?_
  have hspelled : ∀ directory ∈ [lit "test", lit "test/"],
      oneSourceTree.resolve directory = some [lit "test"] ∧
        startsWith directory [slash] = false ∧ Path.names directory = [lit "test"] := by
    decide +kernel
  intro outer houter inner hinner location between names hresolve hresolve' _ _
  obtain ⟨hplace, hroot, hnames⟩ := hspelled outer houter
  obtain ⟨hplace', hroot', hnames'⟩ := hspelled inner hinner
  obtain rfl : location = [lit "test"] := Option.some.inj (hresolve.symm.trans hplace)
  have hbetween : [lit "test"] ++ between = [lit "test"] ++ [] :=
    Option.some.inj (hresolve'.symm.trans hplace')
  exact ⟨by rw [hroot, hroot'],
    by rw [hnames, hnames', List.append_cancel_left hbetween, List.append_nil]⟩

/-- The directory listed twice, once after `./`. -/
theorem analyzed_twice :
    ¬ oneSourceTree.AnalyzedOnce (oneSourceTree.toolsOf oneSource)
      { testDirectories := [lit "test", lit "./test"] } := by
  intro h
  have hcount := h [lit "test", lit "x.c"] ⟨by decide, by decide⟩
    ⟨lit "test", by decide, [lit "test"], [lit "x.c"], by decide, by decide, by decide⟩
  revert hcount
  decide +kernel

end FileTree

end RuntimeAnalyzer
