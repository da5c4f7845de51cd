import RuntimeAnalyzer.Discovery
import RuntimeAnalyzer.Lib.Turns
import RuntimeAnalyzer.RunBinary

/-!
# A batch that changes the file system

Removing an artifact, compiling a source and running a program change the file system, and a later
source of a batch meets what the earlier ones left. `runBatchIn` follows these changes. For its
result, they come down to what the tools answer in the turn of each source (`runs_in_turns`), so
what is proved of every `runBatch` holds of it.
-/

namespace RuntimeAnalyzer

/-- The parts outside of `RunBatch`, with what they do to a file system whose states are `ω`. -/
structure World (ω : Type*) where
  createDirectories : Bytes → ω → Option Bytes × ω
  pathExists : Bytes → ω → Bool
  isDirectory : Bytes → ω → Bool
  scan : Bytes → ω → Scan
  relative : Bytes → ω → Option Bytes
  readSmallTextFile : Bytes → ω → Bytes
  /-- `std::filesystem::remove`; whether it succeeds is not looked at. -/
  remove : Bytes → ω → ω
  compile : List Bytes → ω → CompileResult × ω
  absolute : Bytes → ω → Option Bytes
  runProcess : ProcessSpec → ω → ProcessResult × ω

variable {ω : Type*} (world : World ω) (options : AnalyzerOptions)

/-! ## The run and the batch -/

namespace World

/-- What is answered to a run in one state. -/
def toolsAt (disk : ω) : Tools where
  compile args := (world.compile args disk).1
  runProcess spec := (world.runProcess spec disk).1
  absolute path := world.absolute path disk

/-- What is answered to a batch in one state. -/
def batchToolsAt (disk : ω) : BatchTools where
  createDirectories path := (world.createDirectories path disk).1
  pathExists path := world.pathExists path disk
  isDirectory path := world.isDirectory path disk
  scan path := world.scan path disk
  relative source := world.relative source disk
  readSmallTextFile source := world.readSmallTextFile source disk
  toolsFor _ := world.toolsAt disk

end World

/-- `Run`, with the file system before and after it. -/
def runIn (disk : ω) : AnalyzerResult × ω :=
  if hasCompileOnlyAction options.compilerArgs && options.runProgram then
    ({ diagnostics :=
        lit "runtime-analyzer requires a linked executable; remove compile-only flags or pass " ++
          lit "--no-run" }, disk)
  else if options.explicitOutputPath && (findOutputArgument options.compilerArgs).present then
    (refusedTwice, disk)
  else
    let (compilerArgs, outputPath) := buildCompilerArguments options
    let (compiled, disk) := world.compile compilerArgs disk
    let result : AnalyzerResult :=
      { diagnostics := compiled.diagnostics
        outputPath := outputPath
        compileSuccess := compiled.success }
    if !compiled.success then (result, disk)
    else if !options.runProgram then ({ result with success := true, exitCode := 0 }, disk)
    else
      let spec := processSpec (world.toolsAt disk) options outputPath
      let (process, disk) := world.runProcess spec disk
      (finishRun options result process, disk)

/-- The turn of a source: its artifact is removed before it is built again. -/
def runTestIn (source : Bytes) (disk : ω) : AnalyzerResult × ω :=
  let test := testOptions (world.batchToolsAt disk) options source
  let (analyzer, disk) := runIn world test (world.remove test.outputPath disk)
  ({ analyzer with
    outputPath := if analyzer.outputPath = [] then test.outputPath else analyzer.outputPath }, disk)

/-- One turn of the loop. -/
def testSourceIn (state : (BatchResult × Int) × ω) (source : Bytes) : (BatchResult × Int) × ω :=
  let (analyzer, disk) := runTestIn world options source state.2
  ((state.1.1.record ⟨source, analyzer⟩, max state.1.2 (verdict analyzer options.runProgram)), disk)

/-- `RunBatch`, with the file system before and after it. -/
def runBatchIn (disk : ω) : BatchResult × ω :=
  if hasCompileOnlyAction options.compilerArgs && options.runProgram then
    ({ diagnostics :=
        lit "runtime-analyzer batch mode requires linked executables; remove compile-only flags " ++
          lit "or pass --no-run" }, disk)
  else
    let (failure, disk) := world.createDirectories options.outputDirectory disk
    match failure with
    | some message =>
        ({ diagnostics :=
            lit "failed to create output directory " ++ options.outputDirectory ++ lit ": " ++
              message }, disk)
    | none =>
        let (sources, diagnostics) :=
          discoverSourceFiles (world.batchToolsAt disk) options.testDirectories
        if sources = [] then
          ({ diagnostics := diagnostics ++ lit "no C/C++ test sources found\n" }, disk)
        else
          let (state, disk) := sources.foldl (testSourceIn world options)
            (({ diagnostics := diagnostics }, kExitNoFindings), disk)
          (finishBatch options state, disk)

/-! ## What is answered in each turn -/

namespace World

/-- What is answered to a run that compiles in this state. -/
def runTools (disk : ω) : Tools where
  compile args := (world.compile args disk).1
  runProcess spec :=
    (world.runProcess spec (world.compile (buildCompilerArguments options).1 disk).2).1
  absolute path := world.absolute path (world.compile (buildCompilerArguments options).1 disk).2

/-- The file system once the output directory is there. -/
def created (disk : ω) : ω :=
  (world.createDirectories options.outputDirectory disk).2

/-- The sources of a batch. -/
def sources (disk : ω) : List Bytes :=
  (discoverSourceFiles (world.batchToolsAt (world.created options disk)) options.testDirectories).1

/-- The file system when the turn of a source comes. -/
def turn (disk : ω) (source : Bytes) : ω :=
  Turns.before (fun disk source => (runTestIn world options source disk).2)
    (world.created options disk) (world.sources options disk) source

/-- The options of the run of a source, in its turn. -/
def optionsOf (disk : ω) (source : Bytes) : AnalyzerOptions :=
  testOptions (world.batchToolsAt (world.turn options disk source)) options source

/-- What is answered to a batch: to each source in its turn, with its artifact removed. -/
def answers (disk : ω) : BatchTools where
  createDirectories path := (world.createDirectories path disk).1
  pathExists path := world.pathExists path (world.created options disk)
  isDirectory path := world.isDirectory path (world.created options disk)
  scan path := world.scan path (world.created options disk)
  relative source := world.relative source (world.turn options disk source)
  readSmallTextFile source := world.readSmallTextFile source (world.turn options disk source)
  toolsFor source :=
    let test := world.optionsOf options disk source
    world.runTools test (world.remove test.outputPath (world.turn options disk source))

end World

/-! ## The result -/

variable {world : World ω} {options : AnalyzerOptions}

/-- A run asks the tools once each, so their answers in its states decide its result. -/
theorem run_in_fst (disk : ω) :
    (runIn world options disk).1 = run (world.runTools options disk) options := by
  rcases hbuild : buildCompilerArguments options with ⟨compilerArgs, outputPath⟩
  unfold runIn run
  split
  · rfl
  · split
    · rfl
    · simp only [World.runTools, hbuild]
      cases hsuccess : (world.compile compilerArgs disk).1.success with
      | false => simp
      | true =>
          cases hrun : options.runProgram with
          | false => simp
          | true =>
              simp only [Bool.not_true, Bool.false_eq_true, if_false]
              rfl

theorem run_test_in_fst (disk : ω) (source : Bytes) :
    (runTestIn world options source (world.turn options disk source)).1 =
      runTest (world.answers options disk) options source := by
  let test := world.optionsOf options disk source
  let removed := world.remove test.outputPath (world.turn options disk source)
  have hpair : (runTestIn world options source (world.turn options disk source)).1 =
      { (runIn world test removed).1 with
        outputPath :=
          if (runIn world test removed).1.outputPath = [] then test.outputPath
          else (runIn world test removed).1.outputPath } := rfl
  rw [hpair, run_in_fst]
  rfl

/-- The file system after the turns of all sources. -/
def World.tested (world : World ω) (options : AnalyzerOptions) (disk : ω) : ω :=
  (world.sources options disk).foldl (fun disk source => (runTestIn world options source disk).2)
    (world.created options disk)

/-- The loop over the sources, and what it leaves. -/
theorem test_sources_in (disk : ω) (state : BatchResult × Int) :
    (world.sources options disk).foldl (testSourceIn world options)
        (state, world.created options disk) =
      ((world.sources options disk).foldl (testSource (world.answers options disk) options) state,
        world.tested options disk) := by
  have hnodup : (world.sources options disk).Nodup :=
    SortUnique.nodup_sort_unique Path.total_preorder_le _
  have hturns := Turns.foldl_in_turns (fun disk source => (runTestIn world options source disk).2)
    (fun (state : BatchResult × Int) disk source =>
      (state.1.record ⟨source, (runTestIn world options source disk).1⟩,
        max state.2 (verdict (runTestIn world options source disk).1 options.runProgram)))
    state (world.created options disk) hnodup
  refine hturns.trans (congrArg₂ _ ?_ rfl)
  refine List.foldl_ext _ _ _ fun state source _ => ?_
  have hturn := @run_test_in_fst ω world options disk source
  rw [World.turn] at hturn
  rw [hturn, testSource]

/-- The result of a batch is that of the tools that answer to each source as in its turn. -/
theorem run_batch_in_fst (world : World ω) (options : AnalyzerOptions) (disk : ω) :
    (runBatchIn world options disk).1 = runBatch (world.answers options disk) options := by
  have hdiscover : discoverSourceFiles (world.answers options disk) options.testDirectories =
      discoverSourceFiles (world.batchToolsAt (world.created options disk))
        options.testDirectories := rfl
  unfold runBatchIn runBatch
  split
  · rfl
  · rw [hdiscover]
    rcases hcreate : world.createDirectories options.outputDirectory disk with ⟨failure, created⟩
    have hfailure : (world.answers options disk).createDirectories options.outputDirectory =
        failure := by
      show (world.createDirectories options.outputDirectory disk).1 = failure
      rw [hcreate]
    have hcreated : world.created options disk = created := by
      rw [World.created, hcreate]
    have hloop := @test_sources_in ω world options disk
      ({ diagnostics := (discoverSourceFiles (world.batchToolsAt created)
        options.testDirectories).2 }, kExitNoFindings)
    rw [World.sources, hcreated] at hloop
    rw [hfailure, hcreated]
    cases failure with
    | some message => rfl
    | none =>
        by_cases hnone : (discoverSourceFiles (world.batchToolsAt created)
            options.testDirectories).1 = []
        · simp only [hnone, if_true]
        · simp only [if_neg hnone, hloop]
          rfl

/-- What a batch leaves: the disk as it was, the output directory, or what the turns of its sources
leave. -/
theorem run_batch_in_snd (world : World ω) (options : AnalyzerOptions) (disk : ω) :
    (runBatchIn world options disk).2 =
      if hasCompileOnlyAction options.compilerArgs && options.runProgram then disk
      else if (world.createDirectories options.outputDirectory disk).1 = none then
        world.tested options disk
      else world.created options disk := by
  unfold runBatchIn
  split
  · rfl
  · rcases hcreate : world.createDirectories options.outputDirectory disk with ⟨failure, created⟩
    have hcreated : world.created options disk = created := by
      rw [World.created, hcreate]
    have hloop := @test_sources_in ω world options disk
      ({ diagnostics := (discoverSourceFiles (world.batchToolsAt created)
        options.testDirectories).2 }, kExitNoFindings)
    rw [World.sources, hcreated] at hloop
    rw [hcreated]
    cases failure with
    | some message => rfl
    | none =>
        by_cases hnone : (discoverSourceFiles (world.batchToolsAt created)
            options.testDirectories).1 = []
        · simp only [World.tested, World.sources, hcreated, hnone, if_true, List.foldl_nil]
        · simp only [if_neg hnone, hloop]
          rfl

theorem turn_of_split {disk : ω} {done rest : List Bytes} {source : Bytes}
    (hsplit : world.sources options disk = done ++ source :: rest) :
    world.turn options disk source =
      done.foldl (fun disk source => (runTestIn world options source disk).2)
        (world.created options disk) :=
  Turns.before_of_split _ _ (SortUnique.nodup_sort_unique Path.total_preorder_le _) hsplit

/-- A batch in the file system is one whose tools answer to each source in its turn. -/
structure RunsInTurns (world : World ω) (options : AnalyzerOptions) (disk : ω) : Prop where
  result : (runBatchIn world options disk).1 = runBatch (world.answers options disk) options
  /-- The turn of a source comes after those of the sources before it. -/
  turns : ∀ done source rest, world.sources options disk = done ++ source :: rest →
    world.turn options disk source =
      done.foldl (fun disk source => (runTestIn world options source disk).2)
        (world.created options disk)
  final : (runBatchIn world options disk).2 =
    if hasCompileOnlyAction options.compilerArgs && options.runProgram then disk
    else if (world.createDirectories options.outputDirectory disk).1 = none then
      world.tested options disk
    else world.created options disk

/-- Whatever the sources of a batch do to the file system, the batch is that of the tools that
answer to each as they do in its turn. -/
theorem runs_in_turns (world : World ω) (options : AnalyzerOptions) (disk : ω) :
    RunsInTurns world options disk where
  result := run_batch_in_fst world options disk
  turns _ _ _ := turn_of_split
  final := run_batch_in_snd world options disk

end RuntimeAnalyzer
