import RuntimeAnalyzer.MainStatus

/-!
# What a command line can ask for

`ParseArgs` fills in the options that a caller of the library sets by hand. A command line can ask
for any that have a name in each assignment for the environment, a limit in seconds, and an output
path that is the default unless it is set. `renderArgs` is one that does
(`request_of_command_line_iff`).
-/

namespace RuntimeAnalyzer

/-! ## Accepted arguments -/

theorem not_information {arg : Bytes} (hhelp : spelling arg ≠ .help)
    (hversion : spelling arg ≠ .version) : arg ∉ informationNames := by
  intro hmem
  simp only [informationNames, List.mem_cons, List.not_mem_nil, or_false] at hmem
  rcases hmem with rfl | rfl | rfl
  · exact hhelp (by decide)
  · exact hhelp (by decide)
  · exact hversion (by decide)

theorem AsksForNothing.cons {arg : Bytes} {args rest : List Bytes} (hhelp : spelling arg ≠ .help)
    (hversion : spelling arg ≠ .version)
    (hpositions : optionPositions args = arg :: optionPositions rest) (h : AsksForNothing rest) :
    AsksForNothing args := by
  intro other hmem
  rw [hpositions] at hmem
  rcases List.mem_cons.mp hmem with rfl | hmem
  · exact not_information hhelp hversion
  · exact h other hmem

/-- An argument that asks for the help or the version shows in what is parsed. -/
theorem asks_for_nothing_of_parsed {result : ParseResult} {args : List Bytes}
    (hok : (parseFrom result args).ok = true) (hhelp : (parseFrom result args).help = false)
    (hversion : (parseFrom result args).version = false) : AsksForNothing args := by
  have hne : ∀ {arg : Bytes}, spelling arg ≠ .separator → arg ≠ lit "--" := by
    rintro arg hspelling rfl
    exact hspelling spelling_separator
  fun_induction parseFrom result args with
  | case1 result => simp [AsksForNothing, optionPositions]
  | case2 result arg rest hspelling =>
      have hseparator : arg = lit "--" := by
        cases hspelling ▸ spelled arg with
        | separator h => exact h
      cases rest <;> simp [AsksForNothing, optionPositions, hseparator]
  | case3 result arg rest hspelling => cases hhelp
  | case4 result arg rest hspelling => cases hversion
  | case5 result arg rest flag hspelling ih =>
      have hseparator : arg ≠ lit "--" := hne (by simp [hspelling])
      have halone := option_positions_alone rest hseparator (by simp [hspelling])
      exact .cons (by simp [hspelling]) (by simp [hspelling]) halone (ih hok hhelp hversion)
  | case6 result arg option hspelling => cases hok
  | case7 result arg option hspelling value rest next hset ih =>
      have hseparate := option_positions_separate value rest hspelling
      exact .cons (by simp [hspelling]) (by simp [hspelling]) hseparate (ih hok hhelp hversion)
  | case8 result arg option hspelling value rest error hset => cases hok
  | case9 result arg rest option value hspelling next hset ih =>
      have hseparator : arg ≠ lit "--" := hne (by simp [hspelling])
      have halone := option_positions_alone rest hseparator (by simp [hspelling])
      exact .cons (by simp [hspelling]) (by simp [hspelling]) halone (ih hok hhelp hversion)
  | case10 result arg rest option value hspelling error hset => cases hok
  | case11 result arg rest hspelling => cases hok

/-- Accepted arguments are those of the grammar. -/
theorem line_of_accepted {argv : List Bytes} (h : Accepted argv) :
    ∃ line : CommandLine, argv.tail = line.tokens ∧ parseArgs argv = line.result := by
  have hasks := asks_for_nothing_of_parsed h.ok h.help h.version
  obtain ⟨groups, tail, htokens, hgroups, hcomplete⟩ :=
    @in_grammar_of_ok [] {} argv.tail (by decide) hasks h.ok
  refine ⟨⟨groups, tail, hgroups, hcomplete⟩, htokens, ?_⟩
  rw [parseArgs, htokens]
  exact parse_line ⟨groups, tail, hgroups, hcomplete⟩

/-! ## Requests -/

/-- The limit is a number of seconds that `--timeout` takes. -/
def IsLimit (seconds : Nat) (timeout : Int) : Prop :=
  (seconds : Int) ≤ Int64.maxValue.toInt ∧ timeout = millisecondsOf seconds

/-- A result with this limit that a command line can give. -/
structure Request (seconds : Nat) (result : ParseResult) : Prop where
  ok : result.ok = true
  help : result.help = false
  version : result.version = false
  error : result.error = []
  environment : ∀ assignment ∈ result.options.environment, ValuedOption.env.Accepts assignment
  outputPath : result.options.explicitOutputPath = false →
    result.options.outputPath = lit "runtime-analyzer.out"
  timeout : IsLimit seconds result.options.timeout
  /-- There is something to analyze. -/
  complete : result.options.compilerArgs ≠ [] ∨ result.options.testDirectories ≠ []

/-- A number that `stoll` reads to its end fits 64 bits. -/
theorem limit_of_seconds {value : Bytes} {seconds : Int} (h : timeoutSeconds value = some seconds) :
    IsLimit seconds.toNat (millisecondsOf seconds) := by
  obtain ⟨hstoll, hnonneg⟩ := timeout_seconds_eq_some_iff.mp h
  have hcast : (seconds.toNat : Int) = seconds := Int.toNat_of_nonneg hnonneg
  refine ⟨?_, by rw [hcast]⟩
  rw [hcast]
  unfold stoll at hstoll
  simp only [Option.ite_none_left_eq_some, Option.ite_none_right_eq_some, Option.some.injEq,
    Prod.mk.injEq] at hstoll
  obtain ⟨-, hrange, hvalue, -⟩ := hstoll
  rw [← hvalue]
  exact hrange.2

/-! ## What is collected from a command line -/

/-- The option takes the value. -/
def Setting.Accepted : Setting → Prop
  | .flag _ => True
  | .value option text => option.Accepts text

theorem OptionGroup.WellFormed.setting {group : OptionGroup} (h : group.WellFormed) :
    group.setting.Accepted := by
  cases group with
  | flag flag => exact trivial
  | separate option name value => exact h.2
  | joined option name value => exact h.2

theorem accepts_of_mem_values {settings : List Setting}
    (h : ∀ setting ∈ settings, setting.Accepted) {option : ValuedOption} {value : Bytes}
    (hmem : value ∈ values option settings) : option.Accepts value := by
  obtain ⟨setting, hsetting, hvalue⟩ := List.mem_filterMap.mp hmem
  have haccepted := h setting hsetting
  cases setting with
  | flag flag => cases hvalue
  | value given text =>
      simp only [Option.ite_none_right_eq_some, Option.some.injEq] at hvalue
      obtain ⟨rfl, rfl⟩ := hvalue
      exact haccepted

/-- What a command line gives is a request. -/
theorem request_of_line (line : CommandLine) : ∃ seconds, Request seconds line.result := by
  have haccepted : ∀ setting ∈ line.groups.map (·.setting), setting.Accepted := by
    intro setting hmem
    obtain ⟨group, hgroup, rfl⟩ := List.mem_map.mp hmem
    exact (line.wellFormed group hgroup).setting
  have hlimit : ∃ seconds, IsLimit seconds line.result.options.timeout := by
    let limits := ((values .timeout (line.groups.map (·.setting))).filterMap timeoutSeconds).map
      millisecondsOf
    by_cases hnone : limits = []
    · refine ⟨60, by decide, ?_⟩
      show limits.getLastD 60000 = _
      rw [hnone]
      decide
    · have hlast : limits.getLastD 60000 ∈ limits := by
        rw [List.getLastD_eq_getLast?, List.getLast?_eq_some_getLast hnone, Option.getD_some]
        exact List.getLast_mem hnone
      obtain ⟨seconds, hseconds, heq⟩ := List.mem_map.mp hlast
      obtain ⟨value, -, hvalue⟩ := List.mem_filterMap.mp hseconds
      refine ⟨seconds.toNat, ?_⟩
      show IsLimit _ (limits.getLastD 60000)
      rw [← heq]
      exact limit_of_seconds hvalue
  obtain ⟨seconds, hseconds⟩ := hlimit
  refine ⟨seconds, rfl, rfl, rfl, rfl, ?_, ?_, hseconds, line.complete⟩
  · exact fun assignment hmem => accepts_of_mem_values haccepted hmem
  · intro hexplicit
    have hnone : values .output (line.groups.map (·.setting)) = [] := by
      simpa [CommandLine.result, collect] using hexplicit
    show (values .output (line.groups.map (·.setting))).getLastD _ = _
    rw [hnone]
    rfl

/-! ## A command line for a request -/

/-- `text` or `sarif` -/
def OutputFormat.name : OutputFormat → Bytes
  | .text => lit "text"
  | .sarif => lit "sarif"

/-- The settings that make up a result, with the seconds of its limit. -/
def settingsOf (seconds : Nat) (result : ParseResult) : List Setting :=
  (if result.options.explicitOutputPath then [.value .output result.options.outputPath] else []) ++
    result.options.programArgs.map (.value .runArg) ++
    result.options.environment.map (.value .env) ++
    [.value .cwd result.options.workingDirectory] ++
    [.value .timeout (Decimal.render seconds)] ++
    result.options.testDirectories.map (.value .testDir) ++
    [.value .outputDir result.options.outputDirectory] ++
    (if result.options.strictTestExit then [.flag .strictTestExit] else []) ++
    (if result.options.runProgram then [] else [.flag .noRun]) ++
    (if result.options.showProgramOutput then [.flag .showOutput] else []) ++
    (if result.options.showEvents then [.flag .showEvents] else []) ++
    [.value .format result.format.name]

/-- A setting in the last spelling of its option. -/
def Setting.group : Setting → OptionGroup
  | .flag name => .flag name
  | .value option text => .separate option (option.names.getLastD []) text

/-- A command line for a result. -/
def renderArgs (seconds : Nat) (result : ParseResult) : List Bytes :=
  ((settingsOf seconds result).map Setting.group).flatMap (·.tokens) ++
    tailTokens (some result.options.compilerArgs)

theorem values_map_value (option given : ValuedOption) (texts : List Bytes) :
    values option (texts.map (.value given)) = if given = option then texts else [] := by
  induction texts with
  | nil => simp [values]
  | cons text texts ih =>
      rw [List.map_cons, ← List.singleton_append, values_append, values_value, ih]
      by_cases hgiven : given = option <;> simp [hgiven]

theorem given_map_value (flag : Flag) (option : ValuedOption) (texts : List Bytes) :
    given flag (texts.map (.value option)) = false := by
  simp [given]

theorem sign_of_digit {byte : Byte} (rest : Bytes) (h : Decimal.isDigit byte = true) :
    signOf (byte :: rest) = (false, 0) := by
  unfold signOf
  split
  · rename_i heq
    rw [(List.cons.inj heq).1] at h
    exact absurd h (by decide)
  · rename_i heq
    rw [(List.cons.inj heq).1] at h
    exact absurd h (by decide)
  · rfl

theorem is_space_of_digit {byte : Byte} (h : Decimal.isDigit byte = true) :
    isSpace byte = false := by
  simp only [Decimal.isDigit, Bool.and_eq_true, decide_eq_true_eq] at h
  simp only [isSpace, Bool.or_eq_false_iff, decide_eq_false_iff_not, Bool.and_eq_false_iff]
  obtain ⟨hlow, -⟩ := h
  rw [UInt8.le_iff_toNat_le] at hlow
  refine ⟨fun hspace => ?_, .inr ?_⟩
  · rw [hspace] at hlow
    exact absurd hlow (by decide)
  · rw [UInt8.le_iff_toNat_le]
    have hfloor : (48 : UInt8).toNat = 48 := rfl
    have htop : (13 : UInt8).toNat = 13 := rfl
    omega

/-- A number of 64 bits is read back from its numeral. -/
theorem stoll_render {seconds : Nat} (h : (seconds : Int) ≤ Int64.maxValue.toInt) :
    stoll (Decimal.render seconds) = some ((seconds : Int), (Decimal.render seconds).length) := by
  have hdigits : (Decimal.render seconds).takeWhile Decimal.isDigit = Decimal.render seconds :=
    List.takeWhile_eq_self_iff.mpr fun byte hmem => Decimal.isDigit_of_mem_render hmem
  have hblanks : (Decimal.render seconds).takeWhile isSpace = [] ∧
      signOf (Decimal.render seconds) = (false, 0) := by
    obtain ⟨byte, rest, hrender⟩ := List.exists_cons_of_ne_nil (Decimal.render_ne_nil seconds)
    have hdigit : Decimal.isDigit byte = true :=
      Decimal.isDigit_of_mem_render (hrender ▸ List.mem_cons_self)
    rw [hrender]
    exact ⟨List.takeWhile_cons_of_neg (by simp [is_space_of_digit hdigit]),
      sign_of_digit rest hdigit⟩
  simp [stoll, hblanks.1, hblanks.2, hdigits, Decimal.render_ne_nil, Decimal.value_render, h]

theorem timeout_seconds_render {seconds : Nat} (h : (seconds : Int) ≤ Int64.maxValue.toInt) :
    timeoutSeconds (Decimal.render seconds) = some (seconds : Int) :=
  timeout_seconds_eq_some_iff.mpr ⟨stoll_render h, by omega⟩

theorem format_of_name (format : OutputFormat) : formatOf format.name = some format := by
  cases format <;> decide

/-- The values that the settings of a result hold for an option. -/
def valuesOf (seconds : Nat) (result : ParseResult) : ValuedOption → List Bytes
  | .output => if result.options.explicitOutputPath then [result.options.outputPath] else []
  | .runArg => result.options.programArgs
  | .env => result.options.environment
  | .cwd => [result.options.workingDirectory]
  | .timeout => [Decimal.render seconds]
  | .testDir => result.options.testDirectories
  | .outputDir => [result.options.outputDirectory]
  | .format => [result.format.name]

theorem values_ite_flag (option : ValuedOption) (c : Bool) (flag : Flag) :
    values option (if c then [] else [.flag flag]) = [] ∧
      values option (if c then [.flag flag] else []) = [] := by
  cases c <;> exact ⟨rfl, rfl⟩

theorem values_settings (seconds : Nat) (result : ParseResult) (option : ValuedOption) :
    values option (settingsOf seconds result) = valuesOf seconds result option := by
  have houtput : values option (if result.options.explicitOutputPath then
      [.value .output result.options.outputPath] else []) =
        if option = .output then valuesOf seconds result .output else [] := by
    cases hexplicit : result.options.explicitOutputPath <;> cases option <;>
      simp [values, valuesOf, hexplicit]
  simp only [settingsOf, values_append, values_map_value, values_value, values_ite_flag, houtput]
  cases option <;> simp [valuesOf]

/-- The flag is set in the result. -/
def flagOf (result : ParseResult) : Flag → Bool
  | .strictTestExit => result.options.strictTestExit
  | .noRun => !result.options.runProgram
  | .showOutput => result.options.showProgramOutput
  | .showEvents => result.options.showEvents

theorem given_settings (seconds : Nat) (result : ParseResult) (flag : Flag) :
    given flag (settingsOf seconds result) = flagOf result flag := by
  have hset : ∀ (c : Bool) (other : Flag),
      given flag (if c then [.flag other] else []) = (c && decide (flag = other)) ∧
        given flag (if c then [] else [.flag other]) = (!c && decide (flag = other)) := by
    intro c other
    cases c <;> simp [given]
  have houtput : given flag (if result.options.explicitOutputPath then
      [.value .output result.options.outputPath] else []) = false := by
    split <;> simp [given]
  simp only [settingsOf, given_append, given_map_value, given_value, hset, houtput]
  cases flag <;> simp [flagOf]

/-- A single value decides, if it can be read. -/
theorem last_of_single {α β γ : Type} {f : α → Option β} {a : α} {b : β} (h : f a = some b)
    (g : β → γ) (start : γ) : (([a].filterMap f).map g).getLastD start = g b := by
  simp [h]

/-- The settings of a request make it up again. -/
theorem collect_settings {seconds : Nat} {result : ParseResult} (h : Request seconds result) :
    collect (settingsOf seconds result) result.options.compilerArgs = result := by
  have hpath : (valuesOf seconds result .output).getLastD (lit "runtime-analyzer.out") =
      result.options.outputPath := by
    cases hexplicit : result.options.explicitOutputPath with
    | true => simp [valuesOf, hexplicit]
    | false => simp [valuesOf, hexplicit, h.outputPath hexplicit]
  have hexplicit : decide (valuesOf seconds result .output ≠ []) =
      result.options.explicitOutputPath := by
    cases hexplicit : result.options.explicitOutputPath <;> simp [valuesOf, hexplicit]
  have hlimit : (((valuesOf seconds result .timeout).filterMap timeoutSeconds).map
      millisecondsOf).getLastD 60000 = result.options.timeout := by
    rw [h.timeout.2]
    exact last_of_single (timeout_seconds_render h.timeout.1) millisecondsOf 60000
  have hformat : ((valuesOf seconds result .format).filterMap formatOf).getLastD .text =
      result.format := by
    simp [valuesOf, format_of_name]
  have hok := h.ok
  have hhelp := h.help
  have hversion := h.version
  have herror := h.error
  simp only [collect, values_settings, given_settings, hpath, hexplicit, hlimit, hformat]
  cases result
  simp_all [valuesOf, flagOf]

theorem Setting.Accepted.group {setting : Setting} (h : setting.Accepted) :
    setting.group.WellFormed := by
  cases setting with
  | flag name => exact trivial
  | value option text => exact ⟨by cases option <;> decide, h⟩

/-- The groups of some settings set just these. -/
theorem map_group_setting (settings : List Setting) :
    (settings.map Setting.group).map (·.setting) = settings := by
  rw [List.map_map]
  exact (List.map_congr_left fun setting _ => by cases setting <;> rfl).trans (List.map_id _)

theorem accepted_settings {seconds : Nat} {result : ParseResult} (h : Request seconds result) :
    ∀ setting ∈ settingsOf seconds result, setting.Accepted := by
  intro setting hmem
  cases setting with
  | flag name => exact trivial
  | value option text =>
      -- What is set is a value of its option.
      have hvalue : text ∈ valuesOf seconds result option := by
        rw [← values_settings]
        exact List.mem_filterMap.mpr ⟨_, hmem, if_pos rfl⟩
      show option.Accepts text
      cases option with
      | env => exact h.environment text hvalue
      | timeout =>
          rw [valuesOf, List.mem_singleton] at hvalue
          rw [hvalue]
          exact ⟨_, timeout_seconds_eq_some_iff.mp (timeout_seconds_render h.timeout.1)⟩
      | format =>
          rw [valuesOf, List.mem_singleton] at hvalue
          rw [hvalue]
          exact (format_of_isSome_iff _).mp ⟨_, format_of_name _⟩
      | _ => exact trivial

/-- The command line of a request, in the grammar. -/
def Request.line {seconds : Nat} {result : ParseResult} (h : Request seconds result) :
    CommandLine where
  groups := (settingsOf seconds result).map Setting.group
  tail := some result.options.compilerArgs
  wellFormed group hmem := by
    obtain ⟨setting, hsetting, rfl⟩ := List.mem_map.mp hmem
    exact (accepted_settings h setting hsetting).group
  complete := by
    rw [map_group_setting, values_settings]
    exact h.complete

theorem parse_render_args {seconds : Nat} {result : ParseResult} (h : Request seconds result)
    (program : Bytes) : parseArgs (program :: renderArgs seconds result) = result := by
  have hsettings : h.line.groups.map (·.setting) = settingsOf seconds result :=
    map_group_setting _
  calc parseArgs (program :: renderArgs seconds result) = h.line.result := parse_line h.line
    _ = collect (settingsOf seconds result) result.options.compilerArgs := by
        rw [CommandLine.result, hsettings]
        rfl
    _ = result := collect_settings h

example :
    renderArgs 5 { options := { compilerArgs := [lit "a.c"], timeout := 5000 } } =
      [lit "--cwd", [], lit "--timeout", lit "5", lit "--output-dir",
        lit "runtime-analyzer-artifacts", lit "--format", lit "text", lit "--", lit "a.c"] := by
  decide +kernel

/-! ## The requests of command lines -/

/-- The results of accepted command lines are the requests, each of them that of a command line
made for it, with which the program does the same. -/
theorem request_of_command_line_iff (result : ParseResult) :
    ((∃ argv, Accepted argv ∧ parseArgs argv = result) ↔ ∃ seconds, Request seconds result) ∧
      ∀ seconds, Request seconds result → ∀ program,
        parseArgs (program :: renderArgs seconds result) = result ∧
          ∀ argv host, argv.headD [] = program → parseArgs argv = result →
            main host (program :: renderArgs seconds result) = main host argv := by
  refine ⟨⟨?_, ?_⟩, ?_⟩
  · intro hline
    obtain ⟨argv, haccepted, rfl⟩ := hline
    obtain ⟨line, -, hresult⟩ := line_of_accepted haccepted
    rw [hresult]
    exact request_of_line line
  · intro hrequest
    obtain ⟨seconds, h⟩ := hrequest
    have hparse := parse_render_args h (lit "runtime-analyzer")
    refine ⟨_, ⟨?_, ?_, ?_⟩, hparse⟩
    · rw [hparse, h.help]
    · rw [hparse, h.version]
    · rw [hparse, h.ok]
  · intro seconds h program
    have hparse := parse_render_args h program
    refine ⟨hparse, fun argv host hprogram hargv => ?_⟩
    simp only [main, hparse, hargv, hprogram, List.headD_cons]

end RuntimeAnalyzer
