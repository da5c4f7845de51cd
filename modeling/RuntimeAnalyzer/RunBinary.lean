import RuntimeAnalyzer.Run

/-!
# The binary of a run

`Run` looks for an output argument twice: in the user's compiler arguments, to refuse a second
path, and in those that are left without `--instrument`, to learn the path. An output argument is
seen by its own spelling alone (`find_output_present`), so both looks see the same, and the binary
that is executed is the one the compiler was told to write (`binary_named_by_arguments`).
-/

namespace RuntimeAnalyzer

/-! ## Output arguments -/

/-- The argument starts an output argument, in one of its four spellings. -/
def isOutputArgument (arg : Bytes) : Bool :=
  arg = lit "-o" || arg = lit "--output" || startsWith arg (lit "-o=") ||
    startsWith arg (lit "--output=")

/-- The compiler arguments without `--instrument`. -/
def withoutInstrument (args : List Bytes) : List Bytes :=
  args.filter (· ≠ lit "--instrument")

/-- An argument that starts none is passed over. -/
theorem find_output_cons_of_not {arg : Bytes} (h : isOutputArgument arg = false)
    (rest : List Bytes) : findOutputArgument (arg :: rest) = findOutputArgument rest := by
  simp only [isOutputArgument, Bool.or_eq_false_iff, decide_eq_false_iff_not] at h
  obtain ⟨⟨⟨hshort, hlong⟩, hjoined⟩, hjoinedLong⟩ := h
  simp [findOutputArgument, hshort, hlong, hjoined, hjoinedLong]

theorem find_output_cons_present {arg : Bytes} (h : isOutputArgument arg = true)
    (rest : List Bytes) : (findOutputArgument (arg :: rest)).present = true := by
  simp only [isOutputArgument, Bool.or_eq_true, decide_eq_true_eq, or_assoc] at h
  unfold findOutputArgument
  split
  · rfl
  · rename_i hseparate
    split
    · rfl
    · rename_i hjoined
      rw [if_pos]
      tauto

/-- An output argument is seen when one of the arguments starts one. -/
theorem find_output_present (args : List Bytes) :
    (findOutputArgument args).present = args.any isOutputArgument := by
  induction args with
  | nil => rfl
  | cons arg rest ih =>
      cases harg : isOutputArgument arg with
      | true => simp [find_output_cons_present harg, harg]
      | false => simp [find_output_cons_of_not harg, harg, ih]

/-- Arguments without an output argument are passed over. -/
theorem find_output_append {args : List Bytes} (h : (findOutputArgument args).present = false)
    (more : List Bytes) : findOutputArgument (args ++ more) = findOutputArgument more := by
  induction args with
  | nil => rfl
  | cons arg rest ih =>
      cases harg : isOutputArgument arg with
      | true => simp [find_output_cons_present harg] at h
      | false =>
          rw [find_output_cons_of_not harg] at h
          rw [List.cons_append, find_output_cons_of_not harg, ih h]

/-- Dropping `--instrument` drops no output argument. -/
theorem find_output_without_instrument (args : List Bytes) :
    (findOutputArgument (withoutInstrument args)).present = (findOutputArgument args).present := by
  have hinstrument : isOutputArgument (lit "--instrument") = false := by decide
  rw [find_output_present, find_output_present, Bool.eq_iff_iff]
  simp only [withoutInstrument, List.any_eq_true, List.mem_filter, decide_eq_true_eq]
  constructor
  · intro ⟨arg, hmem, houtput⟩
    exact ⟨arg, hmem.1, houtput⟩
  · intro ⟨arg, hmem, houtput⟩
    refine ⟨arg, ⟨hmem, ?_⟩, houtput⟩
    rintro rfl
    simp [hinstrument] at houtput

/-! ## The arguments of a run -/

/-- The path a run uses when its compiler arguments name none. -/
def chosenOutputPath (options : AnalyzerOptions) : Bytes :=
  if options.outputPath = [] then kDefaultOutputPath else options.outputPath

theorem build_compiler_arguments_eq (options : AnalyzerOptions) :
    buildCompilerArguments options =
      if (findOutputArgument (withoutInstrument options.compilerArgs)).present then
        (withoutInstrument options.compilerArgs,
          (findOutputArgument (withoutInstrument options.compilerArgs)).path)
      else
        (withoutInstrument options.compilerArgs ++ [lit "-o", chosenOutputPath options],
          chosenOutputPath options) := rfl

theorem build_of_present {options : AnalyzerOptions}
    (h : (findOutputArgument options.compilerArgs).present = true) :
    buildCompilerArguments options =
      (withoutInstrument options.compilerArgs,
        (findOutputArgument (withoutInstrument options.compilerArgs)).path) := by
  rw [build_compiler_arguments_eq, find_output_without_instrument, if_pos h]

theorem build_of_absent {options : AnalyzerOptions}
    (h : (findOutputArgument options.compilerArgs).present = false) :
    buildCompilerArguments options =
      (withoutInstrument options.compilerArgs ++ [lit "-o", chosenOutputPath options],
        chosenOutputPath options) := by
  rw [build_compiler_arguments_eq, find_output_without_instrument, if_neg (by simp [h])]

/-- What the compiler arguments of a run say about its binary. -/
structure NamesBinary (options : AnalyzerOptions) : Prop where
  /-- The path reported is the one the arguments name. -/
  named : findOutputArgument (buildCompilerArguments options).1 =
    ⟨true, (buildCompilerArguments options).2⟩
  /-- Nothing is added but a path. -/
  kept : (buildCompilerArguments options).1 = withoutInstrument options.compilerArgs ∨
    (buildCompilerArguments options).1 =
      withoutInstrument options.compilerArgs ++ [lit "-o", (buildCompilerArguments options).2]
  chosen : (findOutputArgument options.compilerArgs).present = false →
    (buildCompilerArguments options).2 = chosenOutputPath options
  /-- `--instrument` hides no output argument. -/
  seen : (findOutputArgument (withoutInstrument options.compilerArgs)).present =
    (findOutputArgument options.compilerArgs).present

theorem names_binary (options : AnalyzerOptions) : NamesBinary options := by
  have hseen := find_output_without_instrument options.compilerArgs
  cases hpresent : (findOutputArgument options.compilerArgs).present with
  | true =>
      rw [hpresent] at hseen
      refine ⟨?_, .inl ?_, by simp [hpresent], by rw [hseen, hpresent]⟩
      · rw [build_of_present hpresent, ← hseen]
      · rw [build_of_present hpresent]
  | false =>
      rw [hpresent] at hseen
      refine ⟨?_, .inr ?_, fun _ => ?_, by rw [hseen, hpresent]⟩
      · rw [build_of_absent hpresent, find_output_append hseen]
        rfl
      · rw [build_of_absent hpresent]
      · rw [build_of_absent hpresent]

/-! ## The run -/

/-- The result of a run that is given two paths. -/
def refusedTwice : AnalyzerResult :=
  { diagnostics :=
      lit "output path specified twice: use analyzer -o/--output or compiler -o, not both" }

/-- What a run does with the path. -/
structure RunsNamedBinary (tools : Tools) (options : AnalyzerOptions) : Prop where
  /-- An explicit path is refused, before anything is compiled, when there is another one. -/
  refuses : options.explicitOutputPath = true →
    (hasCompileOnlyAction options.compilerArgs && options.runProgram) = false →
    (run tools options = refusedTwice ↔ (findOutputArgument options.compilerArgs).present = true)
  /-- Any other run reports the path its arguments name. -/
  reports : (hasCompileOnlyAction options.compilerArgs && options.runProgram) = false →
    (options.explicitOutputPath && (findOutputArgument options.compilerArgs).present) = false →
    (run tools options).outputPath =
      (findOutputArgument (buildCompilerArguments options).1).path
  /-- A run that comes to its program executes that path. -/
  executes : Builds tools options → options.runProgram = true →
    ∃ spec : ProcessSpec,
      spec.executable = absolutePathForExecution tools
        (findOutputArgument (buildCompilerArguments options).1).path ∧
      run tools options =
        finishRun options (compiledResult tools options) (tools.runProcess spec)

theorem finish_run_output_path {options : AnalyzerOptions} {result : AnalyzerResult}
    {process : ProcessResult} :
    (finishRun options result process).outputPath = result.outputPath := by
  by_cases herror : process.error = [] <;>
    simp [finishRun, receiveProcess, collectOutput, herror]

/-- A run that is not refused reports the path that goes with its arguments. -/
theorem run_output_path (tools : Tools) {options : AnalyzerOptions}
    (hallowed : (hasCompileOnlyAction options.compilerArgs && options.runProgram) = false)
    (honce : (options.explicitOutputPath &&
      (findOutputArgument options.compilerArgs).present) = false) :
    (run tools options).outputPath = (buildCompilerArguments options).2 := by
  unfold run
  rw [if_neg (by simp [hallowed]), if_neg (by simp [honce])]
  dsimp only
  split
  · rfl
  · split
    · rfl
    · rw [finish_run_output_path]

/-- A chosen path is never empty. -/
theorem chosen_output_path_ne (options : AnalyzerOptions) : chosenOutputPath options ≠ [] := by
  unfold chosenOutputPath
  split
  · decide
  · assumption

/-- The binary a run executes is the one its compiler arguments name. -/
theorem binary_named_by_arguments (options : AnalyzerOptions) :
    NamesBinary options ∧ ∀ tools, RunsNamedBinary tools options := by
  have hnames := names_binary options
  refine ⟨hnames, fun tools => ⟨fun hexplicit hallowed => ?_, fun hallowed honce => ?_,
    fun hbuilds hrun => ?_⟩⟩
  · cases hpresent : (findOutputArgument options.compilerArgs).present with
    | true => simp [run, hallowed, hexplicit, hpresent, refusedTwice]
    -- A run that is not refused reports a path, and a refused one reports none.
    | false =>
        have hpath := run_output_path tools hallowed (by simp [hpresent])
        rw [hnames.chosen hpresent] at hpath
        refine iff_of_false (fun hrefused => ?_) (by simp)
        rw [hrefused] at hpath
        exact chosen_output_path_ne options hpath.symm
  · rw [run_output_path tools hallowed honce, hnames.named]
  · refine ⟨processSpec tools options (buildCompilerArguments options).2, ?_,
      run_of_launch hbuilds hrun⟩
    rw [hnames.named]
    rfl

end RuntimeAnalyzer
