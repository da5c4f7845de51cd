import Mathlib.Logic.Function.Iterate
import RuntimeAnalyzer.BatchDisk

/-!
# A batch, again

The second run of a batch meets the artifacts of the first. Each is removed before it is built, and
a program is run right after it was built, so a batch whose tools do not look at artifacts, but at
the one that they run, reports the same however often it is run (`batch_repeats`).
-/

namespace RuntimeAnalyzer

variable {ω φ β ν : Type*}

/-! ## What is looked at -/

/-- The path is one where a batch puts a binary. -/
def IsArtifact (options : AnalyzerOptions) (path : Bytes) : Prop :=
  ∃ relative source, path = makeTestOutputPath relative options source

/-- The source is one that the scan of a test directory gives. -/
def IsScanned (world : World ω) (options : AnalyzerOptions) (disk : ω) (source : Bytes) : Prop :=
  ∃ directory ∈ options.testDirectories, source ∈ (world.scan directory disk).sources

/-- The answers that a batch gets depend on a `view` of the disk that nothing it does changes, and
what a program does on that and on its file. Removing an artifact succeeds. -/
structure Repeats (world : World ω) (options : AnalyzerOptions) (view : ω → ν)
    (files : ω → φ → Option β) (named : Bytes → φ) : Prop where
  creates : ∀ disk, view (world.createDirectories options.outputDirectory disk).2 = view disk
  removes : ∀ path disk, IsArtifact options path → view (world.remove path disk) = view disk
  compiles : ∀ args path disk, IsArtifact options path → findOutputArgument args = ⟨true, path⟩ →
    view (world.compile args disk).2 = view disk
  runs : ∀ spec path disk, IsArtifact options path → named spec.executable = named path →
    view (world.runProcess spec disk).2 = view disk
  gone : ∀ path disk, IsArtifact options path → files (world.remove path disk) (named path) = none
  created : ∀ {disk disk'}, view disk = view disk' →
    (world.createDirectories options.outputDirectory disk).1 =
      (world.createDirectories options.outputDirectory disk').1
  pathExists : ∀ directory ∈ options.testDirectories, ∀ {disk disk'}, view disk = view disk' →
    world.pathExists directory disk = world.pathExists directory disk'
  isDirectory : ∀ directory ∈ options.testDirectories, ∀ {disk disk'}, view disk = view disk' →
    world.isDirectory directory disk = world.isDirectory directory disk'
  /-- Artifacts may be scanned, but are no sources. -/
  scanned : ∀ directory ∈ options.testDirectories, ∀ {disk disk'}, view disk = view disk' →
    (world.scan directory disk).sources = (world.scan directory disk').sources ∧
      (world.scan directory disk).error = (world.scan directory disk').error
  relative : ∀ source {disk disk'}, IsScanned world options disk source → view disk = view disk' →
    world.relative source disk = world.relative source disk'
  readSmallTextFile : ∀ source {disk disk'}, IsScanned world options disk source →
    view disk = view disk' →
      world.readSmallTextFile source disk = world.readSmallTextFile source disk'
  absolute : ∀ path {disk disk'}, IsArtifact options path → view disk = view disk' →
    world.absolute path disk = world.absolute path disk'
  executed : ∀ path disk, IsArtifact options path →
    named ((world.absolute path disk).getD path) = named path
  /-- Where there is no file yet, the same is built. -/
  built : ∀ args path {disk disk'}, IsArtifact options path →
    findOutputArgument args = ⟨true, path⟩ → view disk = view disk' →
    files disk (named path) = none → files disk' (named path) = none →
      (world.compile args disk).1 = (world.compile args disk').1 ∧
        files (world.compile args disk).2 (named path) =
          files (world.compile args disk').2 (named path)
  ran : ∀ spec path {disk disk'}, IsArtifact options path → named spec.executable = named path →
    view disk = view disk' → files disk (named path) = files disk' (named path) →
      (world.runProcess spec disk).1 = (world.runProcess spec disk').1

variable {world : World ω} {view : ω → ν} {files : ω → φ → Option β} {named : Bytes → φ}
  {batch options : AnalyzerOptions} {disk disk' : ω} {source : Bytes}

/-! ## A run -/

/-- A run that builds an artifact leaves what is looked at. -/
theorem view_run_in (h : Repeats world batch view files named) (disk : ω)
    (hexplicit : options.explicitOutputPath = true)
    (hartifact : IsArtifact batch (chosenOutputPath options)) :
    view (runIn world options disk).2 = view disk := by
  rcases run_in_explicit world hexplicit with ⟨refused, -, hrun⟩ | ⟨hnamed, hrun⟩
  · rw [hrun]
  · have hcompiled := h.compiles _ _ disk hartifact hnamed
    rw [hrun]
    dsimp only
    cases (world.compile (buildCompilerArguments options).1 disk).1.success with
    | false => exact hcompiled
    | true =>
        cases options.runProgram with
        | false => exact hcompiled
        | true =>
            exact (h.runs _ _ _ hartifact (h.executed _ _ hartifact)).trans hcompiled

theorem run_in_repeats (h : Repeats world batch view files named) (hview : view disk = view disk')
    (hexplicit : options.explicitOutputPath = true)
    (hartifact : IsArtifact batch (chosenOutputPath options))
    (hnone : files disk (named (chosenOutputPath options)) = none)
    (hnone' : files disk' (named (chosenOutputPath options)) = none) :
    (runIn world options disk).1 = (runIn world options disk').1 := by
  rcases run_in_explicit world hexplicit with ⟨refused, -, hrun⟩ | ⟨hnamed, hrun⟩
  · rw [hrun, hrun]
  · obtain ⟨hcompiled, hbuilt⟩ := h.built _ _ hartifact hnamed hview hnone hnone'
    have hafter : view (world.compile (buildCompilerArguments options).1 disk).2 =
        view (world.compile (buildCompilerArguments options).1 disk').2 := by
      rw [h.compiles _ _ disk hartifact hnamed, h.compiles _ _ disk' hartifact hnamed, hview]
    -- The program is the same, and so is what it does.
    have hspec : processSpec
          (world.toolsAt (world.compile (buildCompilerArguments options).1 disk).2) options
          (chosenOutputPath options) =
        processSpec (world.toolsAt (world.compile (buildCompilerArguments options).1 disk').2)
          options (chosenOutputPath options) := by
      simp only [processSpec, absolutePathForExecution, World.toolsAt,
        h.absolute _ hartifact hafter]
    have hran := h.ran
      (processSpec (world.toolsAt (world.compile (buildCompilerArguments options).1 disk').2)
        options (chosenOutputPath options)) _ hartifact (h.executed _ _ hartifact) hafter hbuilt
    rw [hrun, hrun]
    dsimp only
    rw [hspec, hcompiled, hran]
    cases (world.compile (buildCompilerArguments options).1 disk').1.success with
    | false => rfl
    | true => cases options.runProgram <;> rfl

/-! ## A test -/

/-- What is scanned depends on what is looked at. -/
theorem is_scanned_of_view (h : Repeats world options view files named)
    (hview : view disk = view disk') (hscanned : IsScanned world options disk source) :
    IsScanned world options disk' source := by
  obtain ⟨directory, hmem, hsource⟩ := hscanned
  exact ⟨directory, hmem, (h.scanned directory hmem hview).1 ▸ hsource⟩

theorem test_options_repeat (h : Repeats world options view files named)
    (hview : view disk = view disk') (hscanned : IsScanned world options disk source) :
    testOptions (world.batchToolsAt disk) options source =
      testOptions (world.batchToolsAt disk') options source := by
  simp only [testOptions, World.batchToolsAt, h.relative source hscanned hview,
    h.readSmallTextFile source hscanned hview]

/-- The binary of a test is an artifact. -/
theorem is_artifact_of_test (tools : BatchTools) (options : AnalyzerOptions) (source : Bytes) :
    IsArtifact options (testOptions tools options source).outputPath :=
  ⟨tools.relative source, source, output_path_of_test tools options source⟩

theorem view_run_test_in (h : Repeats world options view files named) (source : Bytes)
    (disk : ω) : view (runTestIn world options source disk).2 = view disk := by
  let test := testOptions (world.batchToolsAt disk) options source
  have hartifact : IsArtifact options test.outputPath := is_artifact_of_test _ options source
  have hchosen : chosenOutputPath test = test.outputPath := chosen_of_test _ options source
  show view (runIn world test (world.remove test.outputPath disk)).2 = view disk
  rw [view_run_in h _ rfl (hchosen ▸ hartifact), h.removes _ _ hartifact]

/-- The turn of a source reports the same in both states. -/
theorem run_test_in_repeats (h : Repeats world options view files named)
    (hview : view disk = view disk') (hscanned : IsScanned world options disk source) :
    (runTestIn world options source disk).1 = (runTestIn world options source disk').1 := by
  let test := testOptions (world.batchToolsAt disk') options source
  have hartifact : IsArtifact options test.outputPath := is_artifact_of_test _ options source
  have hchosen : chosenOutputPath test = test.outputPath := chosen_of_test _ options source
  have hremoved : view (world.remove test.outputPath disk) =
      view (world.remove test.outputPath disk') := by
    rw [h.removes _ _ hartifact, h.removes _ _ hartifact, hview]
  have hgone : ∀ disk, files (world.remove test.outputPath disk) (named (chosenOutputPath test)) =
      none := by
    intro disk
    rw [hchosen]
    exact h.gone _ disk hartifact
  have hrun : (runIn world test (world.remove test.outputPath disk)).1 =
      (runIn world test (world.remove test.outputPath disk')).1 :=
    run_in_repeats h hremoved rfl (hchosen ▸ hartifact) (hgone disk) (hgone disk')
  unfold runTestIn
  rw [test_options_repeat h hview hscanned]
  exact congrArg (fun analyzer : AnalyzerResult => { analyzer with
    outputPath := if analyzer.outputPath = [] then test.outputPath else analyzer.outputPath }) hrun

/-! ## The batch -/

theorem discover_repeats (h : Repeats world options view files named)
    (hview : view disk = view disk') :
    discoverSourceFiles (world.batchToolsAt disk) options.testDirectories =
      discoverSourceFiles (world.batchToolsAt disk') options.testDirectories := by
  have hfound : ∀ directory ∈ options.testDirectories,
      discoverIn (world.batchToolsAt disk) directory =
        discoverIn (world.batchToolsAt disk') directory := by
    intro directory hmem
    obtain ⟨hsources, herror⟩ := h.scanned directory hmem hview
    simp only [discoverIn, World.batchToolsAt, h.pathExists directory hmem hview,
      h.isDirectory directory hmem hview, hsources, herror]
    rfl
  unfold discoverSourceFiles
  rw [List.flatMap_congr fun directory hmem => congrArg Prod.fst (hfound directory hmem),
    List.flatMap_congr fun directory hmem => congrArg Prod.snd (hfound directory hmem)]

/-- A source that is found was scanned. -/
theorem is_scanned_of_discovered
    (h : source ∈ (discoverSourceFiles (world.batchToolsAt disk) options.testDirectories).1) :
    IsScanned world options disk source := by
  obtain ⟨directory, hmem, hfound⟩ := List.mem_flatMap.mp (SortUnique.mem_of_mem_sort_unique h)
  refine ⟨directory, hmem, ?_⟩
  unfold discoverIn at hfound
  split at hfound
  · cases hfound
  · split at hfound
    · cases hfound
    · cases herror : (world.scan directory disk).error <;>
        simpa [World.batchToolsAt, herror] using hfound

/-- Both loops report the same and leave what is looked at. -/
theorem test_sources_repeat (h : Repeats world options view files named)
    (hview : view disk = view disk') (state : BatchResult × Int) (sources : List Bytes)
    (hscanned : ∀ source ∈ sources, IsScanned world options disk source) :
    (sources.foldl (testSourceIn world options) (state, disk)).1 =
        (sources.foldl (testSourceIn world options) (state, disk')).1 ∧
      view (sources.foldl (testSourceIn world options) (state, disk)).2 = view disk := by
  induction sources generalizing state disk disk' with
  | nil => exact ⟨rfl, rfl⟩
  | cons source sources ih =>
      have hresult := run_test_in_repeats h hview (hscanned source (by simp))
      have hleft := view_run_test_in h source disk
      have hright := view_run_test_in h source disk'
      rw [List.foldl_cons, List.foldl_cons]
      have hnext : testSourceIn world options (state, disk') source =
          ((testSourceIn world options (state, disk) source).1,
            (runTestIn world options source disk').2) := by
        simp only [testSourceIn, hresult]
      obtain ⟨hsame, hkept⟩ := @ih (runTestIn world options source disk).2
        (runTestIn world options source disk').2 (by rw [hleft, hright, hview])
        (testSourceIn world options (state, disk) source).1 fun later hmem =>
          is_scanned_of_view h hleft.symm (hscanned later (List.mem_cons_of_mem source hmem))
      rw [hnext]
      exact ⟨hsame, hkept.trans hleft⟩

/-- A batch reports the same in both states, and leaves what is looked at. -/
theorem run_batch_in_repeats (h : Repeats world options view files named)
    (hview : view disk = view disk') :
    (runBatchIn world options disk).1 = (runBatchIn world options disk').1 ∧
      view (runBatchIn world options disk).2 = view disk := by
  have hleft := h.creates disk
  have hright := h.creates disk'
  have hfailure := h.created hview
  unfold runBatchIn
  split
  · exact ⟨rfl, rfl⟩
  · rcases hcreate : world.createDirectories options.outputDirectory disk with ⟨failure, made⟩
    rcases hcreate' : world.createDirectories options.outputDirectory disk' with ⟨failure', made'⟩
    rw [hcreate] at hleft hfailure
    rw [hcreate'] at hright hfailure
    obtain rfl : failure = failure' := hfailure
    have hmade : view made = view made' := by
      rw [hleft, hright, hview]
    cases failure with
    | some message => exact ⟨rfl, hleft⟩
    | none =>
        have hdiscover := discover_repeats h hmade
        by_cases hnone : (discoverSourceFiles (world.batchToolsAt made')
            options.testDirectories).1 = []
        · simp only [hdiscover, hnone, if_true]
          exact ⟨trivial, hleft⟩
        · have hscanned : ∀ source ∈ (discoverSourceFiles (world.batchToolsAt made')
              options.testDirectories).1, IsScanned world options made source := by
            intro source hmem
            exact is_scanned_of_discovered (hdiscover ▸ hmem)
          obtain ⟨hsame, hkept⟩ := test_sources_repeat h hmade
            ({ diagnostics := (discoverSourceFiles (world.batchToolsAt made')
              options.testDirectories).2 }, kExitNoFindings)
            (discoverSourceFiles (world.batchToolsAt made') options.testDirectories).1 hscanned
          simp only [hdiscover, if_neg hnone]
          exact ⟨congrArg (finishBatch options) hsame, hkept.trans hleft⟩

/-- A batch reports the same however often it was run before. -/
theorem batch_repeats (h : Repeats world options view files named) (disk : ω) (times : Nat) :
    (runBatchIn world options
        ((fun disk => (runBatchIn world options disk).2)^[times] disk)).1 =
      (runBatchIn world options disk).1 := by
  have hview : view ((fun disk => (runBatchIn world options disk).2)^[times] disk) = view disk := by
    induction times with
    | zero => rfl
    | succ times ih =>
        rw [Function.iterate_succ_apply', (run_batch_in_repeats h rfl).2, ih]
  exact (run_batch_in_repeats h hview).1

theorem argument_disk_repeats (options : AnalyzerOptions) :
    Repeats argumentDisk options (fun _ => ()) id id where
  creates _ := rfl
  removes _ _ _ := rfl
  compiles _ _ _ _ _ := rfl
  runs _ _ _ _ _ := rfl
  gone path disk _ := by
    show Function.update disk path none path = none
    exact Function.update_self ..
  created _ := rfl
  pathExists _ _ _ _ _ := rfl
  isDirectory _ _ _ _ _ := rfl
  scanned _ _ _ _ _ := ⟨rfl, rfl⟩
  relative _ _ _ _ _ := rfl
  readSmallTextFile _ _ _ _ _ := rfl
  absolute _ _ _ _ _ := rfl
  executed _ _ _ := rfl
  built args path disk disk' _ hnamed _ hnone hnone' := by
    simp only [argumentDisk, hnamed]
    split
    · exact ⟨rfl, hnone.trans hnone'.symm⟩
    · exact ⟨rfl, by simp⟩
  ran spec path disk disk' _ hexecuted _ hfile := by
    simp only [id] at hexecuted hfile
    simp only [argumentDisk, hexecuted, hfile]

/-- The third batch reports what the first did, with a source that does not build. -/
theorem batch_repeats_third :
    let options : AnalyzerOptions := { testDirectories := [lit "tests"] }
    let again := fun disk => (runBatchIn argumentDisk options disk).2
    (runBatchIn argumentDisk options (again (again fun _ => none))).1 =
        (runBatchIn argumentDisk options fun _ => none).1 ∧
      (runBatchIn argumentDisk options fun _ => none).1.exitCode = kExitNotAnalyzed := by
  intro options again
  exact ⟨batch_repeats (argument_disk_repeats options) (fun _ => none) 2, by decide +kernel⟩

end RuntimeAnalyzer
