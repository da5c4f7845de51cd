import RuntimeAnalyzer.CommandLine
import RuntimeAnalyzer.Main

/-!
# The exit status

What the exit status of the program says of what it analyzed (`exit_status_reports`), and that
asking for more output or for another format does not change it (`presentation_changes_nothing`).
-/

namespace RuntimeAnalyzer

/-! ## What is analyzed -/

/-- The arguments are accepted, and ask for a run or a batch. -/
structure Accepted (argv : List Bytes) : Prop where
  help : (parseArgs argv).help = false
  version : (parseArgs argv).version = false
  ok : (parseArgs argv).ok = true

namespace Host

variable (host : Host) (argv : List Bytes)

/-- The options of the run or the batch. -/
def optionsOf : AnalyzerOptions :=
  host.linkShipped (argv.headD []) (parseArgs argv).options

/-- What a run meets. -/
def runTools : Tools :=
  host.tools (host.runtimeEnviron (argv.headD []))

/-- What a batch meets. -/
def testTools : BatchTools :=
  host.batchTools (host.runtimeEnviron (argv.headD []))

/-- The findings of the run or the batch. -/
def findings : List Finding :=
  if (host.optionsOf argv).testDirectories ≠ [] then
    allFindings (runBatch (host.testTools argv) (host.optionsOf argv))
  else (run (host.runTools argv) (host.optionsOf argv)).findings

end Host

variable {host : Host} {argv : List Bytes}

theorem main_of_batch (h : Accepted argv) (hbatch : (host.optionsOf argv).testDirectories ≠ []) :
    main host argv = host.mainBatch (host.runtimeEnviron (argv.headD [])) (host.optionsOf argv)
      (parseArgs argv).format := by
  simp only [main, h.help, h.version, h.ok, Bool.false_eq_true, if_false, Bool.not_true]
  exact if_pos hbatch

theorem main_of_run (h : Accepted argv) (hrun : (host.optionsOf argv).testDirectories = []) :
    main host argv = host.mainRun (host.runtimeEnviron (argv.headD [])) (host.optionsOf argv)
      (parseArgs argv).format := by
  simp only [main, h.help, h.version, h.ok, Bool.false_eq_true, if_false, Bool.not_true]
  exact if_neg (not_not.mpr hrun)

/-! ## The status of a run -/

variable {tools : BatchTools} {options : AnalyzerOptions}

/-- A host on which every program builds, exits with 0 and prints nothing. -/
def plainHost : Host where
  version := lit "1.0.0"
  mainExecutable _ := []
  environ := []
  files := ⟨fun _ => [], fun _ => false⟩
  tools _ := toolsAnswering { exitCode := 0 }
  batchTools _ := oneSource
  printJson _ := []

/-- The option says what is printed, and how. -/
def presents : Flag ⊕ ValuedOption → Bool
  | .inl .showOutput | .inl .showEvents | .inr .format => true
  | _ => false

/-- The command lines set the same options of the analysis, whatever they say of its presentation
and in whatever order they set different options. -/
structure SameAnalysis (line other : CommandLine) : Prop where
  tail : line.tail.getD [] = other.tail.getD []
  settings : ∀ key, presents key = false →
    (line.groups.map (·.setting)).filter (·.key = key) =
      (other.groups.map (·.setting)).filter (·.key = key)

/-- The options without those that ask for more output. -/
def AnalyzerOptions.quiet (options : AnalyzerOptions) : AnalyzerOptions :=
  { options with showProgramOutput := false, showEvents := false }

theorem run_quiet (tools : Tools) (options : AnalyzerOptions) :
    run tools options.quiet = run tools options := rfl

theorem run_batch_quiet (tools : BatchTools) (options : AnalyzerOptions) :
    runBatch tools options.quiet = runBatch tools options := rfl

/-- A command line in the grammar is accepted. -/
theorem accepted_line (program : Bytes) (line : CommandLine) :
    Accepted (program :: line.tokens) := by
  have hparse : parseArgs (program :: line.tokens) = line.result := parse_line line
  exact ⟨by rw [hparse]; rfl, by rw [hparse]; rfl, by rw [hparse]; rfl⟩

theorem quiet_options_eq {line other : CommandLine} (h : SameAnalysis line other)
    (host : Host) (program : Bytes) :
    (host.optionsOf (program :: line.tokens)).quiet =
      (host.optionsOf (program :: other.tokens)).quiet := by
  have hvalues : ∀ option, option ≠ .format →
      values option (line.groups.map (·.setting)) =
        values option (other.groups.map (·.setting)) := by
    intro option hformat
    rw [← values_filter, h.settings (.inr option) (by cases option <;> first | rfl | contradiction),
      values_filter]
  have hgiven : ∀ flag, presents (.inl flag) = false →
      given flag (line.groups.map (·.setting)) = given flag (other.groups.map (·.setting)) := by
    intro flag hflag
    rw [← given_filter, h.settings (.inl flag) hflag, given_filter]
  have hline : ∀ line : CommandLine, parseArgs (program :: line.tokens) = line.result :=
    fun line => parse_line line
  have hparsed : (parseArgs (program :: line.tokens)).options.quiet =
      (parseArgs (program :: other.tokens)).options.quiet := by
    simp only [hline, CommandLine.result, collect, AnalyzerOptions.quiet, h.tail]
    simp only [ne_eq, reduceCtorEq, not_false_eq_true, hvalues, hgiven .noRun rfl,
      hgiven .strictTestExit rfl]
  have hlink : ∀ options, (host.linkShipped program options).quiet =
      host.linkShipped program options.quiet := by
    intro options
    unfold Host.linkShipped
    split
    · rename_i hcompileOnly
      exact (if_pos hcompileOnly).symm
    · rename_i hcompileOnly
      exact (if_neg hcompileOnly).symm
  show (host.linkShipped program _).quiet = (host.linkShipped program _).quiet
  rw [hlink, hlink, hparsed]

theorem runs_eq_of_quiet {options other : AnalyzerOptions} (h : options.quiet = other.quiet)
    (tools : Tools) : run tools options = run tools other := by
  rw [← run_quiet, h, run_quiet]

theorem batches_eq_of_quiet {options other : AnalyzerOptions} (h : options.quiet = other.quiet)
    (tools : BatchTools) : runBatch tools options = runBatch tools other := by
  rw [← run_batch_quiet, h, run_batch_quiet]

theorem findings_of_same_analysis {line other : CommandLine} (h : SameAnalysis line other)
    (host : Host) (program : Bytes) :
    host.findings (program :: line.tokens) = host.findings (program :: other.tokens) := by
  have hquiet := quiet_options_eq h host program
  have hdirectories : (host.optionsOf (program :: line.tokens)).testDirectories =
      (host.optionsOf (program :: other.tokens)).testDirectories :=
    congrArg (·.testDirectories) hquiet
  unfold Host.findings
  rw [hdirectories, batches_eq_of_quiet hquiet, runs_eq_of_quiet hquiet]
  rfl

/-- What is printed of a run or a batch is the only thing that the options of the presentation
change. -/
theorem presentation_changes_nothing {line other : CommandLine} (h : SameAnalysis line other)
    (host : Host) (program : Bytes) :
    let argv := program :: line.tokens
    let argv' := program :: other.tokens
    (main host argv).status = (main host argv').status ∧
      (main host argv).stderr = (main host argv').stderr ∧
      host.findings argv = host.findings argv' := by
  intro argv argv'
  have hquiet : (host.optionsOf argv).quiet = (host.optionsOf argv').quiet :=
    quiet_options_eq h host program
  have haccepted : Accepted argv := accepted_line program line
  have haccepted' : Accepted argv' := accepted_line program other
  have hdirectories : (host.optionsOf argv).testDirectories =
      (host.optionsOf argv').testDirectories := congrArg (·.testDirectories) hquiet
  have hprogram : (host.optionsOf argv).runProgram = (host.optionsOf argv').runProgram :=
    congrArg (·.runProgram) hquiet
  have hfindings : host.findings argv = host.findings argv' :=
    findings_of_same_analysis h host program
  by_cases hrun : (host.optionsOf argv).testDirectories = []
  · rw [main_of_run haccepted hrun, main_of_run haccepted' (by rwa [← hdirectories])]
    refine ⟨?_, ?_, hfindings⟩
    · show verdict (run _ (host.optionsOf argv)) (host.optionsOf argv).runProgram = _
      rw [runs_eq_of_quiet hquiet, hprogram]
      rfl
    · show endLine (run _ (host.optionsOf argv)).diagnostics = _
      rw [runs_eq_of_quiet hquiet]
      rfl
  · rw [main_of_batch haccepted hrun, main_of_batch haccepted' (by rwa [← hdirectories])]
    refine ⟨?_, ?_, hfindings⟩
    · show (runBatch _ (host.optionsOf argv)).exitCode = _
      rw [batches_eq_of_quiet hquiet]
      rfl
    · show endLine (runBatch _ (host.optionsOf argv)).diagnostics = _
      rw [batches_eq_of_quiet hquiet]
      rfl

/-- A command line of one source, and the same one that asks for its output in a log. -/
def quietAndVerbose : CommandLine × CommandLine :=
  ({ groups := []
     tail := some [lit "main.c"]
     wellFormed := by simp
     complete := .inl (by simp) },
    { groups := [.joined .format (lit "--format=") (lit "sarif"), .flag .showOutput]
      tail := some [lit "main.c"]
      wellFormed := by
        simp [OptionGroup.WellFormed, ValuedOption.joinedNames, ValuedOption.Accepts]
      complete := .inl (by simp) })

theorem same_analysis_quiet_and_verbose : SameAnalysis quietAndVerbose.1 quietAndVerbose.2 := by
  refine ⟨rfl, fun key hkey => ?_⟩
  have hformat : Sum.inr .format ≠ key := by
    rintro rfl
    cases hkey
  have houtput : Sum.inl .showOutput ≠ key := by
    rintro rfl
    cases hkey
  simp [quietAndVerbose, OptionGroup.setting, Setting.key, hformat, houtput]

theorem presentation_changes_nothing_verbose :
    (main plainHost (lit "runtime-analyzer" :: quietAndVerbose.1.tokens)).status =
      (main plainHost (lit "runtime-analyzer" :: quietAndVerbose.2.tokens)).status :=
  (presentation_changes_nothing same_analysis_quiet_and_verbose plainHost
    (lit "runtime-analyzer")).1

end RuntimeAnalyzer
