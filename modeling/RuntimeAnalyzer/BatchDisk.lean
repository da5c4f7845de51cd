import Mathlib.Data.Set.Function
import RuntimeAnalyzer.Artifacts
import RuntimeAnalyzer.BatchShards
import RuntimeAnalyzer.BatchWorld

/-!
# What a batch leaves on the disk

Each test removes the artifact of its source and builds it again, in one directory for all of them.
When compilers write their output and nothing else, the artifacts of a batch are those of its own
compilers, whatever was there before, and a source that does not build has none
(`batch_leaves_artifacts`).
-/

namespace RuntimeAnalyzer

variable {ω φ β : Type*} [DecidableEq φ]

/-! ## Files -/

/-- How the world treats files: `files` are their contents, `named` is the file at a path. The
programs of a batch write to the files of `scratch` only. -/
structure KeepsFiles (world : World ω) (files : ω → φ → Option β) (named : Bytes → φ)
    (scratch : Set φ) : Prop where
  /-- Directories are no files. -/
  creates : ∀ path disk, files (world.createDirectories path disk).2 = files disk
  /-- Removing succeeds; a batch does not look whether it does. -/
  removes : ∀ path disk,
    files (world.remove path disk) = Function.update (files disk) (named path) none
  /-- A compiler writes the output that its arguments name. -/
  compiles : ∀ args path disk, findOutputArgument args = ⟨true, path⟩ →
    Set.EqOn (files (world.compile args disk).2) (files disk) {named path}ᶜ
  builds : ∀ args path disk, findOutputArgument args = ⟨true, path⟩ →
    (world.compile args disk).1.success = true →
      (files (world.compile args disk).2 (named path)).isSome = true
  /-- One that fails makes no file. -/
  fails : ∀ args path disk, findOutputArgument args = ⟨true, path⟩ →
    (world.compile args disk).1.success = false → files disk (named path) = none →
      files (world.compile args disk).2 (named path) = none
  runs : ∀ spec disk, Set.EqOn (files (world.runProcess spec disk).2) (files disk) scratchᶜ

/-- What a run that writes to a path, in a state where there is no file, leaves on the disk. -/
structure LeavesBinary (world : World ω) (files : ω → φ → Option β) (scratch : Set φ)
    (args : List Bytes) (file : φ) (disk after : ω) (result : AnalyzerResult) : Prop where
  others : Set.EqOn (files after) (files disk) ({file} ∪ scratch)ᶜ
  binary : file ∉ scratch → files disk file = none →
    (files after file).isSome = result.compileSuccess
  own : file ∉ scratch → result.compileSuccess = true →
    files after file = files (world.compile args disk).2 file

variable {world : World ω} {options : AnalyzerOptions} {files : ω → φ → Option β}
  {named : Bytes → φ} {scratch : Set φ} {disk : ω}

/-! ## A run -/

/-- A run that was given its output path is refused, or builds its binary there. -/
theorem run_in_explicit (world : World ω) (hexplicit : options.explicitOutputPath = true) :
    (∃ refused : AnalyzerResult, refused.compileSuccess = false ∧
        ∀ disk, runIn world options disk = (refused, disk)) ∨
      findOutputArgument (buildCompilerArguments options).1 = ⟨true, chosenOutputPath options⟩ ∧
        ∀ disk, runIn world options disk =
          let compiled := world.compile (buildCompilerArguments options).1 disk
          let result : AnalyzerResult :=
            { diagnostics := compiled.1.diagnostics
              outputPath := chosenOutputPath options
              compileSuccess := compiled.1.success }
          if !compiled.1.success then (result, compiled.2)
          else if !options.runProgram then
            ({ result with success := true, exitCode := 0 }, compiled.2)
          else
            let process := world.runProcess
              (processSpec (world.toolsAt compiled.2) options (chosenOutputPath options)) compiled.2
            (finishRun options result process.1, process.2) := by
  by_cases hallowed : (hasCompileOnlyAction options.compilerArgs && options.runProgram) = true
  · exact .inl ⟨_, rfl, fun disk => by rw [runIn, if_pos hallowed]⟩
  by_cases honce : (options.explicitOutputPath &&
      (findOutputArgument options.compilerArgs).present) = true
  · exact .inl ⟨refusedTwice, rfl, fun disk => by rw [runIn, if_neg hallowed, if_pos honce]⟩
  have habsent : (findOutputArgument options.compilerArgs).present = false := by
    simpa [hexplicit] using honce
  have hchosen := (names_binary options).chosen habsent
  have hnamed := (names_binary options).named
  rw [hchosen] at hnamed
  refine .inr ⟨hnamed, fun disk => ?_⟩
  rw [runIn, if_neg hallowed, if_neg honce, ← hchosen]

theorem compile_leaves_binary (h : KeepsFiles world files named scratch) (disk : ω)
    {args : List Bytes} {path : Bytes} (hnamed : findOutputArgument args = ⟨true, path⟩)
    {result : AnalyzerResult}
    (hresult : result.compileSuccess = (world.compile args disk).1.success) :
    LeavesBinary world files scratch args (named path) disk (world.compile args disk).2 result where
  others := (h.compiles args path disk hnamed).mono
    (Set.compl_subset_compl.mpr Set.subset_union_left)
  binary _ hnone := by
    rw [hresult]
    cases hsuccess : (world.compile args disk).1.success with
    | true => exact h.builds args path disk hnamed hsuccess
    | false =>
        rw [h.fails args path disk hnamed hsuccess hnone]
        rfl
  own _ _ := rfl

/-- Running a program leaves the binary. -/
theorem LeavesBinary.run (h : KeepsFiles world files named scratch) {args : List Bytes} {file : φ}
    {disk after : ω} {result : AnalyzerResult}
    (hbuilt : LeavesBinary world files scratch args file disk after result) (spec : ProcessSpec) :
    LeavesBinary world files scratch args file disk (world.runProcess spec after).2 result where
  others := ((h.runs spec after).mono (Set.compl_subset_compl.mpr Set.subset_union_right)).trans
    hbuilt.others
  binary hkept hnone := by
    rw [h.runs spec after hkept]
    exact hbuilt.binary hkept hnone
  own hkept hsuccess := by
    rw [h.runs spec after hkept]
    exact hbuilt.own hkept hsuccess

theorem run_leaves_binary (h : KeepsFiles world files named scratch) (disk : ω)
    (hexplicit : options.explicitOutputPath = true) :
    LeavesBinary world files scratch (buildCompilerArguments options).1
      (named (chosenOutputPath options)) disk (runIn world options disk).2
      (runIn world options disk).1 := by
  rcases run_in_explicit world hexplicit with ⟨refused, hfails, hrun⟩ | ⟨hnamed, hrun⟩
  · rw [hrun]
    refine ⟨fun _ _ => rfl, fun _ hnone => ?_, fun _ hsuccess => ?_⟩
    · rw [hnone, hfails]
      rfl
    · rw [hfails] at hsuccess
      cases hsuccess
  · have hbuilt : ∀ result : AnalyzerResult, result.compileSuccess =
        (world.compile (buildCompilerArguments options).1 disk).1.success →
          LeavesBinary world files scratch (buildCompilerArguments options).1
            (named (chosenOutputPath options)) disk
            (world.compile (buildCompilerArguments options).1 disk).2 result :=
      fun _ => compile_leaves_binary h disk hnamed
    rw [hrun]
    dsimp only
    cases hsuccess : (world.compile (buildCompilerArguments options).1 disk).1.success with
    | false => exact hbuilt _ hsuccess.symm
    | true =>
        cases options.runProgram with
        | false => exact hbuilt _ hsuccess.symm
        | true => exact (hbuilt _ (by simp [hsuccess])).run h _

/-! ## A test -/

theorem make_test_output_path_ne (relative : Option Bytes) (options : AnalyzerOptions)
    (source : Bytes) : makeTestOutputPath relative options source ≠ [] := by
  rw [make_test_output_path_eq, Path.append_of_relative _ (starts_with_artifact_name _)]
  simp [artifactName]

theorem chosen_of_test (tools : BatchTools) (options : AnalyzerOptions) (source : Bytes) :
    chosenOutputPath (testOptions tools options source) =
      (testOptions tools options source).outputPath := by
  rw [chosenOutputPath, output_path_of_test, if_neg (make_test_output_path_ne _ _ _)]

/-- The binary of a test is at the path of its artifact, whether it is built or not. -/
theorem run_test_output_path (tools : BatchTools) (options : AnalyzerOptions) (source : Bytes) :
    (runTest tools options source).outputPath = (testOptions tools options source).outputPath := by
  have hpath : (run (tools.toolsFor source) (testOptions tools options source)).outputPath = [] ∨
      (run (tools.toolsFor source) (testOptions tools options source)).outputPath =
        (testOptions tools options source).outputPath := by
    by_cases hallowed : (hasCompileOnlyAction (testOptions tools options source).compilerArgs &&
        (testOptions tools options source).runProgram) = true
    · left
      rw [run, if_pos hallowed]
    · by_cases honce : ((testOptions tools options source).explicitOutputPath &&
          (findOutputArgument (testOptions tools options source).compilerArgs).present) = true
      · left
        rw [run, if_neg hallowed, if_pos honce]
      · right
        rw [Bool.not_eq_true] at hallowed honce
        rw [run_output_path _ hallowed honce, (names_binary _).chosen honce, chosen_of_test]
  show (if _ then _ else _) = _
  rcases hpath with hnone | hsame
  · rw [if_pos hnone]
  · rw [hsame, ite_self]

/-- The turn of a source leaves its artifact, built again. -/
theorem turn_leaves_binary (h : KeepsFiles world files named scratch) (disk : ω) (source : Bytes) :
    LeavesBinary world files scratch
      (buildCompilerArguments (world.optionsOf options disk source)).1
      (named (world.optionsOf options disk source).outputPath)
      (world.remove (world.optionsOf options disk source).outputPath
        (world.turn options disk source))
      (runTestIn world options source (world.turn options disk source)).2
      (runTest (world.answers options disk) options source) := by
  have hchosen : chosenOutputPath (world.optionsOf options disk source) =
      (world.optionsOf options disk source).outputPath := chosen_of_test _ options source
  have hrun := @run_leaves_binary ω φ β _ world (world.optionsOf options disk source) files named
    scratch h (world.remove (world.optionsOf options disk source).outputPath
      (world.turn options disk source)) rfl
  rw [hchosen] at hrun
  rw [← run_test_in_fst]
  exact ⟨hrun.others, hrun.binary, hrun.own⟩

/-- It leaves the other files as they were. -/
theorem turn_leaves_file (h : KeepsFiles world files named scratch) {disk : ω} {source : Bytes}
    {file : φ} (hkept : file ∉ scratch)
    (hother : named (world.optionsOf options disk source).outputPath ≠ file) :
    files (runTestIn world options source (world.turn options disk source)).2 file =
      files (world.turn options disk source) file := by
  have hleaves := @turn_leaves_binary ω φ β _ world options files named scratch h disk source
  have hfile : file ∈ ({named (world.optionsOf options disk source).outputPath} ∪ scratch)ᶜ := by
    simpa [hkept] using hother.symm
  rw [hleaves.others hfile, h.removes, Function.update_of_ne hother.symm]

/-! ## The batch -/

/-- The artifact of a test, as a batch leaves it. -/
structure HasArtifact (world : World ω) (options : AnalyzerOptions) (files : ω → φ → Option β)
    (named : Bytes → φ) (disk final : ω) (test : TestFileResult) : Prop where
  built : (files final (named test.analyzerResult.outputPath)).isSome =
    test.analyzerResult.compileSuccess
  /-- It is what the compiler made of this source in its turn. -/
  own : test.analyzerResult.compileSuccess = true →
    files final (named test.analyzerResult.outputPath) =
      files (world.compile (buildCompilerArguments
          (world.optionsOf options disk test.sourcePath)).1
        (world.remove test.analyzerResult.outputPath
          (world.turn options disk test.sourcePath))).2 (named test.analyzerResult.outputPath)

/-- What a batch leaves on the disk, by the tests it reports. -/
structure LeavesArtifacts (world : World ω) (options : AnalyzerOptions) (files : ω → φ → Option β)
    (named : Bytes → φ) (scratch : Set φ) (disk : ω) : Prop where
  /-- What is no artifact is as it was. -/
  others : ∀ file ∉ scratch,
    (∀ test ∈ (runBatchIn world options disk).1.tests,
      named test.analyzerResult.outputPath ≠ file) →
        files (runBatchIn world options disk).2 file = files disk file
  /-- A test has its artifact, unless a later one has the same. -/
  artifacts : ∀ before test after,
    (runBatchIn world options disk).1.tests = before ++ test :: after →
    named test.analyzerResult.outputPath ∉ scratch →
    (∀ later ∈ after,
      named later.analyzerResult.outputPath ≠ named test.analyzerResult.outputPath) →
        HasArtifact world options files named disk (runBatchIn world options disk).2 test

/-- The turns of the last sources leave a file that is none of their artifacts. -/
theorem tested_leaves_file (h : KeepsFiles world files named scratch) {disk : ω}
    {done rest : List Bytes} (hsplit : world.sources options disk = done ++ rest) {file : φ}
    (hkept : file ∉ scratch)
    (hrest : ∀ later ∈ rest, named (world.optionsOf options disk later).outputPath ≠ file) :
    files (world.tested options disk) file =
      files (done.foldl (fun disk source => (runTestIn world options source disk).2)
        (world.created options disk)) file := by
  have hnodup : (world.sources options disk).Nodup :=
    SortUnique.nodup_sort_unique Path.total_preorder_le _
  refine Turns.foldl_of_rest (fun disk source => (runTestIn world options source disk).2)
    (files · file) (world.created options disk) hnodup hsplit ?_
  intro later hmem
  exact turn_leaves_file h hkept (hrest later hmem)

/-- The last turn that has a file as its artifact leaves it. -/
theorem tested_leaves_artifact (h : KeepsFiles world files named scratch) {disk : ω}
    {done rest : List Bytes} {source : Bytes}
    (hsplit : world.sources options disk = done ++ source :: rest)
    (hkept : named (world.optionsOf options disk source).outputPath ∉ scratch)
    (hrest : ∀ later ∈ rest, named (world.optionsOf options disk later).outputPath ≠
      named (world.optionsOf options disk source).outputPath) :
    files (world.tested options disk) (named (world.optionsOf options disk source).outputPath) =
      files (runTestIn world options source (world.turn options disk source)).2
        (named (world.optionsOf options disk source).outputPath) := by
  rw [tested_leaves_file h (by rw [hsplit, List.append_cons]) hkept hrest, List.foldl_append,
    turn_of_split hsplit]
  rfl

/-- A source whose file no later source has keeps it. -/
theorem artifact_of_split (h : KeepsFiles world files named scratch) {disk : ω}
    {done rest : List Bytes} {source : Bytes}
    (hsplit : world.sources options disk = done ++ source :: rest)
    (hkept : named (world.optionsOf options disk source).outputPath ∉ scratch)
    (hrest : ∀ later ∈ rest, named (world.optionsOf options disk later).outputPath ≠
      named (world.optionsOf options disk source).outputPath) :
    HasArtifact world options files named disk (world.tested options disk)
      ⟨source, runTest (world.answers options disk) options source⟩ := by
  have hleaves := @turn_leaves_binary ω φ β _ world options files named scratch h disk source
  have hremoved : files (world.remove (world.optionsOf options disk source).outputPath
      (world.turn options disk source)) (named (world.optionsOf options disk source).outputPath) =
        none := by
    rw [h.removes, Function.update_self]
  have hpath : (runTest (world.answers options disk) options source).outputPath =
      (world.optionsOf options disk source).outputPath := run_test_output_path _ _ _
  have hfinal := tested_leaves_artifact h hsplit hkept hrest
  constructor
  · rw [hpath, hfinal]
    exact hleaves.binary hkept hremoved
  · intro hsuccess
    rw [hpath, hfinal]
    exact hleaves.own hkept hsuccess

/-- The tests that a batch reports are those of its sources. -/
theorem tests_in (hsearches : Searches (world.answers options disk) options) :
    (runBatchIn world options disk).1.tests =
      (world.sources options disk).map fun source =>
        ⟨source, runTest (world.answers options disk) options source⟩ := by
  rw [run_batch_in_fst]
  exact tests_over hsearches options.testDirectories

/-- A batch that does not search reports no test and leaves every file. -/
theorem files_of_not_searching (h : KeepsFiles world files named scratch) {disk : ω}
    (hsearches : ¬ Searches (world.answers options disk) options) :
    (runBatchIn world options disk).1.tests = [] ∧
      files (runBatchIn world options disk).2 = files disk := by
  constructor
  · obtain ⟨_, hdefaults⟩ := batch_of_not_searching hsearches options.testDirectories
    rw [run_batch_in_fst]
    exact congrArg BatchResult.tests hdefaults
  · rw [run_batch_in_snd]
    split
    · rfl
    · rename_i hallowed
      have hcreates : (world.createDirectories options.outputDirectory disk).1 ≠ none :=
        fun hnone => hsearches ⟨by simpa using hallowed, hnone⟩
      rw [if_neg hcreates]
      exact h.creates _ _

/-- Compilers that write their output and programs that leave it make the artifacts of a batch
those of its own tests. -/
theorem batch_leaves_artifacts (h : KeepsFiles world files named scratch)
    (options : AnalyzerOptions) (disk : ω) :
    LeavesArtifacts world options files named scratch disk := by
  by_cases hsearches : Searches (world.answers options disk) options
  · have htests := tests_in hsearches
    have hpath : ∀ source, (runTest (world.answers options disk) options source).outputPath =
        (world.optionsOf options disk source).outputPath := run_test_output_path _ _
    have hfinal : (runBatchIn world options disk).2 = world.tested options disk := by
      have hcreates : (world.createDirectories options.outputDirectory disk).1 = none :=
        hsearches.2
      rw [run_batch_in_snd, if_neg (by simp [hsearches.1]), if_pos hcreates]
    refine ⟨fun file hkept hothers => ?_, fun before test after hsplit hkept hlater => ?_⟩
    · have hrest : ∀ source ∈ world.sources options disk,
          named (world.optionsOf options disk source).outputPath ≠ file := by
        intro source hmem
        rw [← hpath]
        exact hothers _ (htests ▸ List.mem_map_of_mem hmem)
      rw [hfinal, tested_leaves_file h (List.nil_append _).symm hkept hrest]
      exact congrFun (h.creates _ _) file
    · rw [htests] at hsplit
      obtain ⟨done, others, hsources, -, hrest⟩ := List.map_eq_append_iff.mp hsplit
      obtain ⟨source, rest, rfl, rfl, rfl⟩ := List.map_eq_cons_iff.mp hrest
      simp only [hpath] at hkept
      rw [hfinal]
      refine artifact_of_split h hsources hkept fun later hmem => ?_
      simpa only [hpath] using hlater _ (List.mem_map_of_mem hmem)
  · obtain ⟨htests, hfiles⟩ := files_of_not_searching h hsearches
    refine ⟨fun file _ _ => congrFun hfiles file, fun before test after hsplit => ?_⟩
    rw [htests] at hsplit
    simp at hsplit

/-- A disk whose files are the arguments they were compiled with, next to two sources of which one
does not build. A program runs if its file is there. -/
def argumentDisk : World (Bytes → Option (List Bytes)) where
  createDirectories _ disk := (none, disk)
  pathExists _ _ := true
  isDirectory _ _ := true
  scan _ _ := { entries := [(lit "tests/bad.c", true), (lit "tests/good.c", true)] }
  relative source _ := some source
  readSmallTextFile _ _ := []
  remove path disk := Function.update disk path none
  compile args disk :=
    if args.any (· = lit "tests/bad.c") then ({ success := false }, disk)
    else ({ success := true }, Function.update disk (findOutputArgument args).path (some args))
  absolute path _ := some path
  runProcess spec disk := ({ exitCode := if (disk spec.executable).isSome then 0 else 127 }, disk)

/-- The artifacts of an earlier batch are replaced or gone. -/
theorem batch_leaves_artifacts_stale :
    (runBatchIn argumentDisk { testDirectories := [lit "tests"] }
        fun _ => some [lit "stale"]).1.tests.map (·.analyzerResult.compileSuccess) =
        [false, true] ∧
      LeavesArtifacts argumentDisk { testDirectories := [lit "tests"] } id id ∅
        fun _ => some [lit "stale"] := by
  refine ⟨by decide +kernel, batch_leaves_artifacts ⟨?_, ?_, ?_, ?_, ?_, ?_⟩ _ _⟩
  · exact fun _ _ => rfl
  · exact fun _ _ => rfl
  · intro args path disk hnamed file hfile
    simp only [argumentDisk, hnamed]
    split
    · rfl
    · exact Function.update_of_ne hfile _ _
  · intro args path disk hnamed hsuccess
    simp only [argumentDisk, hnamed] at hsuccess ⊢
    split at hsuccess
    · cases hsuccess
    · rename_i hgood
      simp [hgood]
  · intro args path disk hnamed hfails hnone
    simp only [argumentDisk, hnamed] at hfails ⊢
    split at hfails
    · rename_i hbad
      simpa [hbad] using hnone
    · cases hfails
  · exact fun _ _ _ _ => rfl

end RuntimeAnalyzer
