import RuntimeAnalyzer.MainStatus
import RuntimeAnalyzer.RunBinary

/-!
# From the command line to the program

What the program under analysis gets from the command line and from the installation of the
analyzer: its arguments, its directory and its environment (`program_of_command_line`), and a
binary that the arguments of the shipped runtime do not move (`links_only_iff`).
-/

namespace RuntimeAnalyzer

open Process (getenv programOf cString)

/-! ## The arguments of the shipped runtime -/

/-- The first output argument is `-o` or `--output`, and nothing follows it. -/
def dangles : List Bytes → Bool
  | [] => false
  | arg :: rest =>
      if arg = lit "-o" ∨ arg = lit "--output" then rest = []
      else !isOutputArgument arg && dangles rest

/-- More arguments do not change an output argument that has its path. -/
theorem find_output_append_of_present {args : List Bytes}
    (hpresent : (findOutputArgument args).present = true) (hpath : dangles args = false)
    (more : List Bytes) : findOutputArgument (args ++ more) = findOutputArgument args := by
  induction args with
  | nil => cases hpresent
  | cons arg rest ih =>
      by_cases hseparate : arg = lit "-o" ∨ arg = lit "--output"
      · rw [dangles, if_pos hseparate] at hpath
        obtain ⟨next, rest, rfl⟩ := List.exists_cons_of_ne_nil (by simpa using hpath)
        simp [findOutputArgument, hseparate]
      · cases harg : isOutputArgument arg with
        | true =>
            simp only [List.cons_append, findOutputArgument, if_neg hseparate]
            split
            · rfl
            · rename_i hjoined
              simp only [isOutputArgument, Bool.or_eq_true, decide_eq_true_eq] at harg
              rw [if_pos (by tauto), if_pos (by tauto)]
        | false =>
            rw [find_output_cons_of_not harg] at hpresent ⊢
            rw [dangles, if_neg hseparate, harg] at hpath
            rw [List.cons_append, find_output_cons_of_not harg, ih hpresent (by simpa using hpath)]

/-- An output argument without a path takes the next argument for it. -/
theorem find_output_append_of_dangles {args : List Bytes} (h : dangles args = true)
    (more : List Bytes) :
    findOutputArgument (args ++ more) = ⟨true, more.headD []⟩ := by
  induction args with
  | nil => cases h
  | cons arg rest ih =>
      by_cases hseparate : arg = lit "-o" ∨ arg = lit "--output"
      · rw [dangles, if_pos hseparate] at h
        obtain rfl : rest = [] := by simpa using h
        simp [findOutputArgument, hseparate]
      · simp only [dangles, if_neg hseparate, Bool.and_eq_true, Bool.not_eq_true'] at h
        rw [List.cons_append, find_output_cons_of_not h.1, ih h.2]

/-- The arguments of the shipped runtime, if there are any. -/
theorem shipped_link_cases (files : Files) (executable : Bytes) :
    shippedLinkArguments files executable = [] ∨
      ∃ lib, shippedLinkArguments files executable =
        [lit "-L" ++ lib, lit "-Wl,-rpath," ++ lib] := by
  unfold shippedLinkArguments
  split
  · exact .inl rfl
  · dsimp only
    split
    · exact .inl rfl
    · exact .inr ⟨_, rfl⟩

/-- The arguments of the shipped runtime are added to those of the run and change nothing else. -/
structure LinksOnly (options linked : AnalyzerOptions) : Prop where
  binary : (buildCompilerArguments linked).2 = (buildCompilerArguments options).2
  arguments : ∃ link rest,
    (buildCompilerArguments options).1 = withoutInstrument options.compilerArgs ++ rest ∧
      (buildCompilerArguments linked).1 = withoutInstrument options.compilerArgs ++ link ++ rest

theorem links_only_self (options : AnalyzerOptions) : LinksOnly options options := by
  refine ⟨rfl, [], ?_⟩
  rcases (names_binary options).kept with hkept | hkept
  · exact ⟨[], by simpa using hkept, by simpa using hkept⟩
  · exact ⟨_, hkept, by simpa using hkept⟩

/-- Arguments for a library are neither output arguments nor `--instrument`. -/
theorem link_argument (lib : Bytes) :
    ∀ arg ∈ [lit "-L" ++ lib, lit "-Wl,-rpath," ++ lib],
      isOutputArgument arg = false ∧ arg ≠ lit "--instrument" := by
  have hshort : lit "-o" = [45, 111] := rfl
  have hlong : lit "--output" = [45, 45, 111, 117, 116, 112, 117, 116] := rfl
  have hjoined : lit "-o=" = [45, 111, 61] := rfl
  have hjoinedLong : lit "--output=" = [45, 45, 111, 117, 116, 112, 117, 116, 61] := rfl
  have hinstrument : lit "--instrument" =
      [45, 45, 105, 110, 115, 116, 114, 117, 109, 101, 110, 116] := rfl
  intro arg hmem
  rw [List.mem_cons, List.mem_singleton] at hmem
  rcases hmem with rfl | rfl
  · show isOutputArgument (45 :: 76 :: lib) = false ∧ 45 :: 76 :: lib ≠ _
    simp [isOutputArgument, startsWith, List.isPrefixOf, hshort, hlong, hjoined, hjoinedLong,
      hinstrument]
  · show isOutputArgument (45 :: 87 :: (lit "l,-rpath," ++ lib)) = false ∧
      45 :: 87 :: (lit "l,-rpath," ++ lib) ≠ _
    simp [isOutputArgument, startsWith, List.isPrefixOf, hshort, hlong, hjoined, hjoinedLong,
      hinstrument]

/-- Arguments that are neither output arguments nor `--instrument` do not move the binary, unless
they become its path. -/
theorem links_only_append {options : AnalyzerOptions} {link : List Bytes}
    (hlink : ∀ arg ∈ link, isOutputArgument arg = false ∧ arg ≠ lit "--instrument")
    (hfirst : link.headD [] ≠ []) :
    LinksOnly options { options with compilerArgs := options.compilerArgs ++ link } ↔
      dangles (withoutInstrument options.compilerArgs) = false := by
  have hwithout : withoutInstrument (options.compilerArgs ++ link) =
      withoutInstrument options.compilerArgs ++ link := by
    rw [withoutInstrument, List.filter_append, withoutInstrument]
    congr 1
    exact List.filter_eq_self.mpr fun arg hmem => by simpa using (hlink arg hmem).2
  have habsent : (findOutputArgument link).present = false := by
    rw [find_output_present, List.any_eq_false]
    exact fun arg hmem => by simp [(hlink arg hmem).1]
  have hbuild := build_compiler_arguments_eq options
  have hbuildLinked := build_compiler_arguments_eq
    { options with compilerArgs := options.compilerArgs ++ link }
  simp only [hwithout] at hbuildLinked
  cases hdangles : dangles (withoutInstrument options.compilerArgs) with
  | true =>
      -- The path was empty, and is the first of the arguments now.
      have hfind := find_output_append_of_dangles hdangles []
      rw [List.append_nil] at hfind
      rw [find_output_append_of_dangles hdangles link] at hbuildLinked
      rw [hfind] at hbuild
      refine iff_of_false (fun h => hfirst ?_) (by simp)
      have hbinary := h.binary
      rw [hbuild, hbuildLinked] at hbinary
      exact hbinary
  | false =>
      refine iff_of_true ?_ rfl
      cases hpresent : (findOutputArgument (withoutInstrument options.compilerArgs)).present with
      | true =>
          rw [find_output_append_of_present hpresent hdangles, if_pos hpresent] at hbuildLinked
          rw [if_pos hpresent] at hbuild
          refine ⟨by rw [hbuild, hbuildLinked], link, [], ?_, ?_⟩
          · simp [hbuild]
          · simp [hbuildLinked]
      | false =>
          rw [find_output_append hpresent, habsent] at hbuildLinked
          rw [hpresent] at hbuild
          refine ⟨?_, link, [lit "-o", chosenOutputPath options], ?_, ?_⟩
          · rw [hbuild, hbuildLinked]
            rfl
          · rw [hbuild]
            rfl
          · rw [hbuildLinked]
            rfl

/-- The installed analyzer builds the binary that one without a runtime of its own would, unless
the output argument of the compiler has no path and takes the first of the arguments. -/
theorem links_only_iff (host : Host) (program : Bytes) (options : AnalyzerOptions) :
    LinksOnly options (host.linkShipped program options) ↔
      host.linkShipped program options = options ∨
        dangles (withoutInstrument options.compilerArgs) = false := by
  by_cases hsame : host.linkShipped program options = options
  · rw [hsame]
    exact iff_of_true (links_only_self options) (.inl rfl)
  · rw [or_iff_right hsame]
    unfold Host.linkShipped at hsame ⊢
    split at hsame
    · exact absurd rfl hsame
    · rename_i hlinked
      rw [if_neg hlinked]
      rcases shipped_link_cases host.files (host.mainExecutable program) with hnone | ⟨lib, hlib⟩
      · simp [hnone] at hsame
      · rw [hlib]
        exact links_only_append (link_argument lib) (by simp)

/-! ## The program under analysis -/

/-- The process runs of the program: the one of a run, or that of a source of a batch. -/
inductive StartsProcess (host : Host) (argv : List Bytes) : ProcessSpec → Prop
  | run (outputPath : Bytes) :
      StartsProcess host argv (processSpec (host.runTools argv) (host.optionsOf argv) outputPath)
  | test (source outputPath : Bytes) :
      StartsProcess host argv (processSpec ((host.testTools argv).toolsFor source)
        (testOptions (host.testTools argv) (host.optionsOf argv) source) outputPath)

/-- What the environment of the analyzer holds under a name: its own, or itself under `CT_CLANG`
when it comes with Clang's headers. -/
def Host.inherited (host : Host) (program name : Bytes) : Option Bytes :=
  if (useShippedClangHeaders host.files host.environ (host.mainExecutable program)).1 = true ∧
      name = lit "CT_CLANG" then some (cString (host.mainExecutable program))
  else getenv host.environ name

/-- The program gets what the command line says. -/
structure AsAsked (host : Host) (program : Bytes) (line : CommandLine)
    (started : Process.Program) : Prop where
  arguments : started.argv.tail = values .runArg (line.groups.map (·.setting))
  directory : started.directory =
    (values .cwd (line.groups.map (·.setting))).getLast?.filter (· ≠ [])
  environ : ∀ name, name ≠ [] → equals ∉ name → getenv started.environ name =
    (((values .env (line.groups.map (·.setting))).filterMap
        (Environ.valueOf equals name)).getLast?).or (host.inherited program name)

/-- Each value stands at the end of an argument. -/
theorem value_mem_tokens {line : CommandLine} {option : ValuedOption} {value : Bytes}
    (h : value ∈ values option (line.groups.map (·.setting))) :
    ∃ token ∈ line.tokens, value <:+ token := by
  rw [values, List.filterMap_map, List.mem_filterMap] at h
  obtain ⟨group, hgroup, hvalue⟩ := h
  have hmem : ∀ token ∈ group.tokens, token ∈ line.tokens := fun token htoken =>
    List.mem_append_left _ (List.mem_flatMap.mpr ⟨group, hgroup, htoken⟩)
  cases group with
  | flag flag => simp [OptionGroup.setting] at hvalue
  | separate given name found =>
      simp only [Function.comp_apply, OptionGroup.setting, Option.ite_none_right_eq_some,
        Option.some.injEq] at hvalue
      exact ⟨found, hmem found (by simp [OptionGroup.tokens]), by rw [hvalue.2]⟩
  | joined given name found =>
      simp only [Function.comp_apply, OptionGroup.setting, Option.ite_none_right_eq_some,
        Option.some.injEq] at hvalue
      exact ⟨name ++ found, hmem _ (by simp [OptionGroup.tokens]), by
        rw [hvalue.2]
        exact List.suffix_append _ _⟩

/-- The fields of a process run that come from the command line. -/
theorem starts_fields {host : Host} {argv : List Bytes} {spec : ProcessSpec}
    (h : StartsProcess host argv spec) :
    spec.args = (parseArgs argv).options.programArgs ∧
      spec.environment = (parseArgs argv).options.environment ∧
        spec.workingDirectory = (parseArgs argv).options.workingDirectory := by
  have hlink : (host.optionsOf argv).programArgs = (parseArgs argv).options.programArgs ∧
      (host.optionsOf argv).environment = (parseArgs argv).options.environment ∧
        (host.optionsOf argv).workingDirectory =
          (parseArgs argv).options.workingDirectory := by
    unfold Host.optionsOf Host.linkShipped
    split <;> exact ⟨rfl, rfl, rfl⟩
  cases h <;> exact hlink

/-- Every program that is run gets the arguments, the directory and the environment that the
command line asks for. Arguments hold no NUL, as they are C strings. -/
theorem program_of_command_line {host : Host} {program : Bytes} {line : CommandLine}
    (hzero : ∀ token ∈ line.tokens, 0 ∉ token) {spec : ProcessSpec}
    (h : StartsProcess host (program :: line.tokens) spec) :
    AsAsked host program line (programOf (host.runtimeEnviron program) spec) := by
  have hparse : parseArgs (program :: line.tokens) = line.result := parse_line line
  obtain ⟨hargs, henvironment, hdirectory⟩ := starts_fields h
  rw [hparse] at hargs henvironment hdirectory
  have hplain : ∀ {option value}, value ∈ values option (line.groups.map (·.setting)) →
      0 ∉ value := by
    intro option value hmem hnul
    obtain ⟨token, htoken, hsuffix⟩ := value_mem_tokens hmem
    exact hzero token htoken (hsuffix.subset hnul)
  refine ⟨?_, ?_, fun name hname hequals => ?_⟩
  · show spec.args.map cString = _
    rw [hargs]
    exact (List.map_congr_left fun value hmem =>
      Process.c_string_of_not_mem (hplain hmem)).trans (List.map_id _)
  · show (if spec.workingDirectory = [] then none else some (cString spec.workingDirectory)) = _
    have hlast : line.result.options.workingDirectory =
        (values .cwd (line.groups.map (·.setting))).getLast?.getD [] := by
      simp [CommandLine.result, collect]
    rw [hdirectory, hlast]
    cases hcwd : (values .cwd (line.groups.map (·.setting))).getLast? with
    | none => rfl
    | some directory =>
        have hnul := Process.c_string_of_not_mem (hplain (List.mem_of_getLast? hcwd))
        by_cases hempty : directory = [] <;> simp [Option.filter, hempty, hnul]
  · rw [Process.getenv_program (by rw [henvironment]; exact fun _ hmem => hplain hmem) hname
      hequals, henvironment, Host.runtimeEnviron, getenv_use_shipped_clang_headers _ _ _ hequals]
    rfl

/-- A command line that sets a variable twice. -/
def setsTwice : CommandLine where
  groups :=
    [.separate .env (lit "--env") (lit "MODE=slow"), .separate .env (lit "--env") (lit "MODE=fast"),
      .separate .runArg (lit "--run-arg") (lit "--verbose")]
  tail := some [lit "main.c"]
  wellFormed := by
    intro group hmem
    simp only [List.mem_cons, List.not_mem_nil, or_false] at hmem
    rcases hmem with rfl | rfl | rfl
    · exact ⟨by decide, lit "MODE", lit "slow", by decide, by decide, by decide⟩
    · exact ⟨by decide, lit "MODE", lit "fast", by decide, by decide, by decide⟩
    · exact ⟨by decide, trivial⟩
  complete := .inl (by simp)

/-- The last value is the one the program finds. -/
theorem program_of_command_line_twice :
    AsAsked plainHost (lit "runtime-analyzer") setsTwice
        (programOf (plainHost.runtimeEnviron (lit "runtime-analyzer"))
          (processSpec (plainHost.runTools (lit "runtime-analyzer" :: setsTwice.tokens))
            (plainHost.optionsOf (lit "runtime-analyzer" :: setsTwice.tokens)) (lit "a.out"))) ∧
      ((values .env (setsTwice.groups.map (·.setting))).filterMap
        (Environ.valueOf equals (lit "MODE"))).getLast? = some (lit "fast") :=
  ⟨program_of_command_line (by decide +kernel) (.run _), by decide⟩

end RuntimeAnalyzer
