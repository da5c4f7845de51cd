import RuntimeAnalyzer.BatchVerdict
import RuntimeAnalyzer.PathOrder

/-!
# Discovery of the sources of a batch

The sources of a batch are the source files that the scans of its directories enumerate, each path
once and in order. `batch_reproducible_iff` says when neither the order of the directories and of
the entries nor repeated directories change them: when no file comes under two spellings of an equal
path, of which only the first one met is kept.
-/

namespace RuntimeAnalyzer

variable {tools : BatchTools} {options : AnalyzerOptions} {directories : List Bytes}

/-! ## What is found -/

/-- A regular source file that the scan of a listed directory enumerates. -/
def IsFound (tools : BatchTools) (directories : List Bytes) (path : Bytes) : Prop :=
  ∃ directory ∈ directories, tools.pathExists directory = true ∧
    tools.isDirectory directory = true ∧ (path, true) ∈ (tools.scan directory).entries ∧
    isSourceFile path = true

/-- The sources of a batch are sorted, and each is kept once. -/
theorem discover_source_files_fst (tools : BatchTools) (directories : List Bytes) :
    (discoverSourceFiles tools directories).1 =
      SortUnique.sortUnique Path.le
        (directories.flatMap fun directory => (discoverIn tools directory).1) :=
  rfl

theorem mem_scan_sources {scan : Scan} {path : Bytes} :
    path ∈ scan.sources ↔ (path, true) ∈ scan.entries ∧ isSourceFile path = true := by
  simp only [Scan.sources, List.mem_map, List.mem_filter, Bool.and_eq_true]
  constructor
  · rintro ⟨⟨entry, regular⟩, ⟨hmem, hregular, hsource⟩, rfl⟩
    obtain rfl : regular = true := hregular
    exact ⟨hmem, hsource⟩
  · rintro ⟨hmem, hsource⟩
    exact ⟨(path, true), ⟨hmem, rfl, hsource⟩, rfl⟩

theorem discover_in_fst (tools : BatchTools) (directory : Bytes) :
    (discoverIn tools directory).1 =
      if tools.pathExists directory && tools.isDirectory directory then
        (tools.scan directory).sources
      else [] := by
  unfold discoverIn
  cases tools.pathExists directory
  · rfl
  · cases tools.isDirectory directory
    · rfl
    · cases herror : (tools.scan directory).error <;> simp [herror]

theorem mem_discovered_iff {path : Bytes} :
    path ∈ directories.flatMap (fun directory => (discoverIn tools directory).1) ↔
      IsFound tools directories path := by
  rw [List.mem_flatMap]
  refine exists_congr fun directory => and_congr_right fun _ => ?_
  rw [discover_in_fst]
  split
  · rename_i hdirectory
    obtain ⟨hexists, hdir⟩ := Bool.and_eq_true_iff.mp hdirectory
    simp only [mem_scan_sources, hexists, hdir, true_and]
  · rename_i hnot
    refine iff_of_false List.not_mem_nil fun h => hnot ?_
    rw [h.1, h.2.1]
    rfl

theorem found_of_mem {path : Bytes} (h : path ∈ (discoverSourceFiles tools directories).1) :
    IsFound tools directories path :=
  mem_discovered_iff.mp (SortUnique.mem_of_mem_sort_unique h)

/-- Every source found is kept, or a path equal to it. -/
theorem exists_source_of_found {path : Bytes} (h : IsFound tools directories path) :
    ∃ source ∈ (discoverSourceFiles tools directories).1, Path.equal source path = true :=
  SortUnique.exists_equal_of_mem Path.total_preorder_le (mem_discovered_iff.mpr h)

theorem sources_increasing (tools : BatchTools) (directories : List Bytes) :
    (discoverSourceFiles tools directories).1.Pairwise fun lhs rhs => Path.le rhs lhs = false :=
  SortUnique.sort_unique_increasing Path.total_preorder_le _

/-- Equal sources of a batch are the same. -/
theorem source_eq_of_equal {path path' : Bytes}
    (h : path ∈ (discoverSourceFiles tools directories).1)
    (h' : path' ∈ (discoverSourceFiles tools directories).1)
    (hequal : Path.equal path path' = true) : path = path' :=
  SortUnique.eq_of_equal Path.total_preorder_le h h' hequal

/-- A batch that may run and has its output directory makes one test of each source. -/
theorem run_batch_sources
    (hallowed : (hasCompileOnlyAction options.compilerArgs && options.runProgram) = false)
    (hcreated : tools.createDirectories options.outputDirectory = none) :
    (runBatch tools options).tests.map (·.sourcePath) =
      (discoverSourceFiles tools options.testDirectories).1 := by
  by_cases hreached : Reached tools options
  · rw [tests_of_reached hreached, List.map_map]
    exact List.map_id _
  · have hnone : (discoverSourceFiles tools options.testDirectories).1 = [] := by
      by_contra hne
      exact hreached ⟨hallowed, hcreated, hne⟩
    obtain ⟨_, _, hdefaults⟩ := run_batch_of_not_reached hreached
    rw [hdefaults, hnone]
    rfl

/-! ## The same directories again -/

/-- The same files, whose scans enumerate the entries of the directories in any order. -/
structure Reenumerates (tools : BatchTools) (directories : List Bytes) (tools' : BatchTools) :
    Prop where
  same : ∃ scan, tools' = { tools with scan := scan }
  entries : ∀ directory ∈ directories,
    (tools'.scan directory).entries.Perm (tools.scan directory).entries
  error : ∀ directory ∈ directories, (tools'.scan directory).error = (tools.scan directory).error

/-- What a batch gives apart from its diagnostics: the tests, the findings in them, the counters
and the exit code. -/
def BatchResult.results (batch : BatchResult) : BatchResult :=
  { batch with diagnostics := [] }

/-- Listing the directories in another order or several times and enumerating them in another order
changes nothing. -/
structure Reproducible (tools : BatchTools) (options : AnalyzerOptions) : Prop where
  increasing : (discoverSourceFiles tools options.testDirectories).1.Pairwise fun lhs rhs =>
    Path.le rhs lhs = false
  found : ∀ source ∈ (discoverSourceFiles tools options.testDirectories).1,
    IsFound tools options.testDirectories source
  kept : ∀ path, IsFound tools options.testDirectories path →
    ∃ source ∈ (discoverSourceFiles tools options.testDirectories).1,
      Path.equal source path = true
  sources : ∀ tools' directories,
    (∀ directory, directory ∈ directories ↔ directory ∈ options.testDirectories) →
    Reenumerates tools options.testDirectories tools' →
    (discoverSourceFiles tools' directories).1 =
      (discoverSourceFiles tools options.testDirectories).1
  batch : ∀ tools' directories,
    (∀ directory, directory ∈ directories ↔ directory ∈ options.testDirectories) →
    Reenumerates tools options.testDirectories tools' →
    (runBatch tools' { options with testDirectories := directories }).results =
      (runBatch tools options).results

/-- No source is found under two spellings of one path. -/
def SpelledOnce (tools : BatchTools) (directories : List Bytes) : Prop :=
  ∀ path path', IsFound tools directories path → IsFound tools directories path' →
    Path.equal path path' = true → path = path'

theorem is_found_congr {tools' : BatchTools} {directories' : List Bytes}
    (hmem : ∀ directory, directory ∈ directories' ↔ directory ∈ directories)
    (h : Reenumerates tools directories tools') (path : Bytes) :
    IsFound tools' directories' path ↔ IsFound tools directories path := by
  obtain ⟨⟨scan, rfl⟩, hentries, -⟩ := h
  refine exists_congr fun directory => ?_
  rw [hmem]
  refine and_congr_right fun hdirectory => ?_
  rw [(hentries directory hdirectory).mem_iff]

/-- Without two spellings of one path, the sources are those found, in the order of paths. -/
theorem sources_congr (hspelled : SpelledOnce tools directories) {tools' : BatchTools}
    {directories' : List Bytes}
    (hmem : ∀ directory, directory ∈ directories' ↔ directory ∈ directories)
    (h : Reenumerates tools directories tools') :
    (discoverSourceFiles tools' directories').1 = (discoverSourceFiles tools directories).1 := by
  refine SortUnique.sort_unique_congr Path.total_preorder_le (fun path => ?_)
    fun path hpath path' hpath' hequal => ?_
  · rw [mem_discovered_iff, mem_discovered_iff, is_found_congr hmem h]
  · exact hspelled path path' (mem_discovered_iff.mp hpath) (mem_discovered_iff.mp hpath') hequal

/-! ## The same batch again -/

/-- Two batches so far with the same results and verdict. -/
structure SameResults (state other : BatchResult × Int) : Prop where
  results : state.1.results = other.1.results
  verdict : state.2 = other.2

/-- Only the diagnostics may be different. -/
theorem SameResults.other_eq {state other : BatchResult × Int} (h : SameResults state other) :
    ∃ diagnostics, other = ({ state.1 with diagnostics := diagnostics }, state.2) := by
  obtain ⟨hresults, hworst⟩ := h
  refine ⟨other.1.diagnostics, Prod.ext ?_ hworst.symm⟩
  calc other.1 = { other.1.results with diagnostics := other.1.diagnostics } := rfl
    _ = { state.1.results with diagnostics := other.1.diagnostics } := by rw [hresults]

theorem same_results_step (tools : BatchTools) (options : AnalyzerOptions)
    {state other : BatchResult × Int} (h : SameResults state other) (source : Bytes) :
    SameResults (testSource tools options state source)
      (testSource tools options other source) := by
  obtain ⟨diagnostics, rfl⟩ := h.other_eq
  refine ⟨?_, rfl⟩
  simp only [testSource, BatchResult.record, BatchResult.results]
  cases failureOf (runTest tools options source) with
  | none => rfl
  | some failure => cases failure <;> rfl

theorem same_results_run (tools : BatchTools) (options : AnalyzerOptions)
    {state other : BatchResult × Int} (h : SameResults state other) (sources : List Bytes) :
    SameResults (sources.foldl (testSource tools options) state)
      (sources.foldl (testSource tools options) other) := by
  induction sources generalizing state other with
  | nil => exact h
  | cons source sources ih => exact ih (same_results_step tools options h source)

theorem finish_batch_congr (options : AnalyzerOptions) {state other : BatchResult × Int}
    (h : SameResults state other) :
    (finishBatch options state).results = (finishBatch options other).results := by
  obtain ⟨diagnostics, rfl⟩ := h.other_eq
  rfl

/-- What is said before the loop does not change the results. -/
theorem run_tests_results (tools : BatchTools) (options : AnalyzerOptions)
    (diagnostics diagnostics' : Bytes) (sources : List Bytes) :
    (runTests tools options diagnostics sources).results =
      (runTests tools options diagnostics' sources).results := by
  have hstart : SameResults ({ diagnostics := diagnostics }, kExitNoFindings)
      ({ diagnostics := diagnostics' }, kExitNoFindings) := ⟨rfl, rfl⟩
  exact finish_batch_congr options (same_results_run tools options hstart sources)

/-- The sources decide the results of a batch. -/
theorem run_batch_results {tools' : BatchTools} {directories : List Bytes}
    (hsame : ∃ scan, tools' = { tools with scan := scan })
    (hsources : (discoverSourceFiles tools' directories).1 =
      (discoverSourceFiles tools options.testDirectories).1) :
    (runBatch tools' { options with testDirectories := directories }).results =
      (runBatch tools options).results := by
  obtain ⟨scan, rfl⟩ := hsame
  simp only [runBatch, hsources]
  split
  · rfl
  · split
    · rfl
    · split
      · rfl
      · -- The run of a source does not look at the directories.
        exact run_tests_results tools options _ _ _

/-! ## What survives -/

/-- The tools that enumerate a regular file of a directory before its other entries. -/
def enumerateFirst (tools : BatchTools) (directory path : Bytes) : BatchTools :=
  { tools with
    scan := fun other =>
      if other = directory then
        { tools.scan directory with
          entries := (path, true) :: (tools.scan directory).entries.erase (path, true) }
      else tools.scan other }

theorem reenumerates_first {directory path : Bytes}
    (hentry : (path, true) ∈ (tools.scan directory).entries) :
    Reenumerates tools directories (enumerateFirst tools directory path) where
  same := ⟨_, rfl⟩
  entries other _ := by
    simp only [enumerateFirst]
    split
    · rename_i heq
      rw [heq]
      exact (List.perm_cons_erase hentry).symm
    · exact List.Perm.refl _
  error other _ := by
    simp only [enumerateFirst]
    split
    · rename_i heq
      rw [heq]
    · rfl

/-- A source that is enumerated first is kept in its own spelling. -/
theorem first_kept {directory path : Bytes} (hexists : tools.pathExists directory = true)
    (hdir : tools.isDirectory directory = true) (hsource : isSourceFile path = true) :
    path ∈ (discoverSourceFiles (enumerateFirst tools directory path)
      (directory :: directories)).1 := by
  have hscan : ((enumerateFirst tools directory path).scan directory).sources =
      path :: Scan.sources { entries := (tools.scan directory).entries.erase (path, true) } := by
    simp [enumerateFirst, Scan.sources, hsource]
  have hopened : ((enumerateFirst tools directory path).pathExists directory &&
      (enumerateFirst tools directory path).isDirectory directory) = true :=
    Bool.and_eq_true_iff.mpr ⟨hexists, hdir⟩
  rw [discover_source_files_fst, List.flatMap_cons, discover_in_fst, if_pos hopened, hscan,
    List.cons_append]
  exact SortUnique.head_mem_sort_unique _ _

/-- A batch is reproducible exactly when no source is found under two spellings of one path. -/
theorem batch_reproducible_iff (tools : BatchTools) (options : AnalyzerOptions) :
    Reproducible tools options ↔ SpelledOnce tools options.testDirectories := by
  constructor
  · intro h path path' hfound hfound' hequal
    have hkept : ∀ path, IsFound tools options.testDirectories path →
        path ∈ (discoverSourceFiles tools options.testDirectories).1 := by
      intro path hfound
      obtain ⟨directory, hmem, hexists, hdir, hentry, hsource⟩ := hfound
      have hagain : ∀ other, other ∈ directory :: options.testDirectories ↔
          other ∈ options.testDirectories := fun other =>
        ⟨fun h => (List.mem_cons.mp h).elim (fun heq => heq ▸ hmem) id, List.mem_cons_of_mem _⟩
      rw [← h.sources _ _ hagain (reenumerates_first hentry)]
      exact first_kept hexists hdir hsource
    exact source_eq_of_equal (hkept path hfound) (hkept path' hfound') hequal
  · intro hspelled
    exact
      { increasing := sources_increasing tools _
        found := fun _ => found_of_mem
        kept := fun _ => exists_source_of_found
        sources := fun _ _ => sources_congr hspelled
        batch := fun _ _ hmem h => run_batch_results h.same (sources_congr hspelled hmem h) }

/-- A directory with one source, whose name may be followed by two separators. -/
def respelled : BatchTools :=
  { oneSource with
    pathExists := fun _ => true
    isDirectory := fun _ => true
    scan := fun directory => { entries := [(Path.append directory (lit "x.c"), true)] } }

/-- The directory listed first decides the spelling of the source. -/
theorem order_decides_spelling :
    ¬ Reproducible respelled { testDirectories := [lit "a", lit "a//"] } := by
  intro h
  have hbatch := h.batch respelled [lit "a//", lit "a"] (by simp [or_comm])
    ⟨⟨respelled.scan, rfl⟩, fun _ _ => List.Perm.refl _, fun _ _ => rfl⟩
  have htests := congrArg (fun batch => batch.tests.map (·.sourcePath)) hbatch
  revert htests
  decide +kernel

end RuntimeAnalyzer
