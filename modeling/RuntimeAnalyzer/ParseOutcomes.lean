import RuntimeAnalyzer.CommandLine

/-!
# How the command line is read to its end

Arguments are read as option groups up to the first that does not fit, and what is read there alone
decides the result: a request for the help or the version, an error and its text, or the arguments
of the compiler (`parse_args_eq_iff`).
-/

namespace RuntimeAnalyzer

/-! ## Ends -/

/-- What is said of a value that an option does not take. -/
def refusedValue : ValuedOption → Bytes
  | .env => lit "--env requires NAME=VALUE"
  | .timeout => lit "--timeout requires a non-negative number of seconds"
  | .format => lit "--format requires text or sarif"
  | _ => []

/-- No option is spelled so. -/
structure Unknown (arg : Bytes) : Prop where
  separator : arg ≠ lit "--"
  information : arg ∉ informationNames
  flag : ∀ flag : Flag, arg ≠ flag.name
  separate : ∀ option : ValuedOption, arg ∉ option.names
  joined : ∀ option : ValuedOption, ∀ name ∈ option.joinedNames, ¬ name <+: arg

/-- The arguments at which reading ends after some settings, and what comes of it. -/
inductive Ends (settings : List Setting) : List Bytes → ParseResult → Prop
  | help {arg : Bytes} (rest : List Bytes) (h : arg = lit "-h" ∨ arg = lit "--help") :
      Ends settings (arg :: rest) { collect settings [] with help := true }
  | version (rest : List Bytes) :
      Ends settings (lit "--version" :: rest) { collect settings [] with version := true }
  | missing {option : ValuedOption} {name : Bytes} (h : name ∈ option.names) :
      Ends settings [name] ((collect settings []).fail (missingValue option name))
  | refused {option : ValuedOption} {name value : Bytes} (rest : List Bytes)
      (h : name ∈ option.names) (hvalue : ¬ option.Accepts value) :
      Ends settings (name :: value :: rest) ((collect settings []).fail (refusedValue option))
  | refusedJoined {option : ValuedOption} {name value : Bytes} (rest : List Bytes)
      (h : name ∈ option.joinedNames) (hvalue : ¬ option.Accepts value) :
      Ends settings ((name ++ value) :: rest) ((collect settings []).fail (refusedValue option))
  | unknown {arg : Bytes} (rest : List Bytes) (h : Unknown arg) :
      Ends settings (arg :: rest) ((collect settings []).fail
        (lit "unknown analyzer option: " ++ arg ++ lit " (compiler arguments go after --)"))
  | incomplete {tail : Option (List Bytes)} (h : tail.getD [] = [])
      (hnone : values .testDir settings = []) :
      Ends settings (tailTokens tail) ((collect settings []).fail
        (lit "missing compiler arguments; use -- <compiler args>"))
  | complete {tail : Option (List Bytes)}
      (h : tail.getD [] ≠ [] ∨ values .testDir settings ≠ []) :
      Ends settings (tailTokens tail) (collect settings (tail.getD []))

/-! ## Reading at an end -/

theorem set_value_refused (result : ParseResult) {option : ValuedOption} {value : Bytes}
    (h : ¬ option.Accepts value) :
    result.setValue option value = .error (refusedValue option) := by
  cases option with
  | env =>
      rw [← env_assignment_iff, Bool.not_eq_true] at h
      simp [ParseResult.setValue, refusedValue, h]
  | timeout =>
      have hnone : timeoutSeconds value = none := by
        rw [Option.eq_none_iff_forall_ne_some]
        exact fun seconds hseconds => h ⟨seconds, timeout_seconds_eq_some_iff.mp hseconds⟩
      simp [ParseResult.setValue, refusedValue, hnone]
  | format =>
      have hnone : formatOf value = none := by
        rw [Option.eq_none_iff_forall_ne_some]
        exact fun format hformat => h ((format_of_isSome_iff value).mp ⟨format, hformat⟩)
      simp [ParseResult.setValue, refusedValue, hnone]
  | _ => exact absurd trivial h

theorem spelling_unknown_iff (arg : Bytes) : spelling arg = .unknown ↔ Unknown arg := by
  constructor
  · intro h
    refine ⟨?_, ?_, ?_, ?_, ?_⟩
    · rintro rfl
      rw [spelling_separator] at h
      cases h
    · intro hmem
      simp only [informationNames, List.mem_cons, List.not_mem_nil, or_false] at hmem
      rcases hmem with rfl | rfl | rfl <;> exact absurd h (by decide)
    · rintro flag rfl
      rw [spelling_flag] at h
      cases h
    · intro option hmem
      rw [spelling_separate hmem] at h
      cases h
    · rintro option name hmem ⟨value, rfl⟩
      rw [spelling_joined value hmem] at h
      cases h
  · intro h
    cases hspelling : spelling arg with
    | unknown => rfl
    | separator =>
        cases hspelling ▸ spelled arg with
        | separator heq => exact absurd heq h.separator
    | help =>
        cases hspelling ▸ spelled arg with
        | help heq => rcases heq with rfl | rfl <;> exact absurd (by decide) h.information
    | version =>
        cases hspelling ▸ spelled arg with
        | version heq => exact absurd (by simp [informationNames, heq]) h.information
    | flag flag =>
        cases hspelling ▸ spelled arg with
        | flag heq => exact absurd heq (h.flag flag)
    | separate option =>
        cases hspelling ▸ spelled arg with
        | separate hmem => exact absurd hmem (h.separate option)
    | joined option value =>
        cases hspelling ▸ spelled arg with
        | joined hmem heq => exact absurd ⟨value, heq.symm⟩ (h.joined option _ hmem)

/-- What stands at an end decides the result. -/
theorem parse_of_ends {settings : List Setting} {rest : List Bytes} {result : ParseResult}
    (h : Ends settings rest result) : parseFrom (collect settings []) rest = result := by
  cases h with
  | help rest h =>
      have hspelling : ∀ arg, arg = lit "-h" ∨ arg = lit "--help" → spelling arg = .help := by
        rintro arg (rfl | rfl) <;> decide
      simp only [parseFrom, hspelling _ h]
  | version rest =>
      have hspelling : spelling (lit "--version") = .version := by decide
      simp only [parseFrom, hspelling]
  | missing h => simp only [parseFrom, spelling_separate h]
  | refused rest h hvalue =>
      simp only [parseFrom, spelling_separate h, set_value_refused _ hvalue]
  | refusedJoined rest h hvalue =>
      simp only [parseFrom, spelling_joined _ h, set_value_refused _ hvalue]
  | unknown rest h => simp only [parseFrom, (spelling_unknown_iff _).mpr h]
  | @incomplete tail h hnone =>
      have hfinish : ∀ compilerArgs, finishArgs (collect settings []) compilerArgs =
          (collect settings []).fail (lit "missing compiler arguments; use -- <compiler args>") :=
        fun compilerArgs => by simp [finishArgs, collect, hnone]
      cases tail with
      | none => exact hfinish false
      | some args =>
          obtain rfl : args = [] := h
          simp only [tailTokens, parseFrom, spelling_separator]
          exact hfinish true
  | @complete tail h =>
      cases tail with
      | none => exact finish_collect settings [] false (fun _ => rfl) h
      | some args =>
          simp only [tailTokens, parseFrom, spelling_separator]
          exact finish_collect settings args true (by simp) h

/-! ## Reading up to an end -/

/-- Arguments read after some settings: option groups, and where they end. -/
def ReadUpTo (settings : List Setting) (args : List Bytes) (result : ParseResult) : Prop :=
  ∃ (groups : List OptionGroup) (rest : List Bytes),
    args = groups.flatMap (·.tokens) ++ rest ∧ (∀ group ∈ groups, group.WellFormed) ∧
      Ends (settings ++ groups.map (·.setting)) rest result

theorem Ends.read_up_to {settings : List Setting} {args : List Bytes} {result : ParseResult}
    (h : Ends settings args result) : ReadUpTo settings args result :=
  ⟨[], args, rfl, by simp, by simpa using h⟩

theorem ReadUpTo.cons {settings : List Setting} (group : OptionGroup) {rest : List Bytes}
    {result : ParseResult} (hgroup : group.WellFormed)
    (h : ReadUpTo (settings ++ [group.setting]) rest result) :
    ReadUpTo settings (group.tokens ++ rest) result := by
  obtain ⟨groups, last, rfl, hgroups, hends⟩ := h
  refine ⟨group :: groups, last, by simp, ?_, by simpa using hends⟩
  intro other hmem
  rcases List.mem_cons.mp hmem with rfl | hmem
  · exact hgroup
  · exact hgroups other hmem

/-- The end of the arguments, after the separator or without it. -/
theorem ends_of_finish (settings : List Setting) (tail : Option (List Bytes)) :
    Ends settings (tailTokens tail)
      (finishArgs (collect settings (tail.getD [])) tail.isSome) := by
  by_cases hcomplete : tail.getD [] ≠ [] ∨ values .testDir settings ≠ []
  · rw [finish_collect settings _ _ (by cases tail <;> simp) hcomplete]
    exact .complete hcomplete
  · rw [not_or, not_not, not_not] at hcomplete
    obtain ⟨hnone, hdirectories⟩ := hcomplete
    have hfinish : finishArgs (collect settings (tail.getD [])) tail.isSome =
        (collect settings []).fail
          (lit "missing compiler arguments; use -- <compiler args>") := by
      rw [hnone]
      simp [finishArgs, collect, hdirectories]
    rw [hfinish]
    exact .incomplete hnone hdirectories

/-- Every argument is a group more or an end. -/
theorem read_up_to_of_parse {settings : List Setting} {result : ParseResult} (args : List Bytes)
    (h : result = collect settings []) : ReadUpTo settings args (parseFrom result args) := by
  fun_induction parseFrom result args generalizing settings with
  | case1 result =>
      subst h
      exact (ends_of_finish settings none).read_up_to
  | case2 result arg rest hspelling =>
      subst h
      obtain rfl : arg = lit "--" := by
        cases hspelling ▸ spelled arg with
        | separator heq => exact heq
      exact (ends_of_finish settings (some rest)).read_up_to
  | case3 result arg rest hspelling =>
      subst h
      cases hspelling ▸ spelled arg with
      | help heq => exact (Ends.help rest heq).read_up_to
  | case4 result arg rest hspelling =>
      subst h
      cases hspelling ▸ spelled arg with
      | version heq =>
          rw [heq]
          exact (Ends.version rest).read_up_to
  | case5 result arg rest flag hspelling ih =>
      subst h
      obtain rfl : arg = flag.name := by
        cases hspelling ▸ spelled arg with
        | flag heq => exact heq
      exact .cons (.flag flag) trivial (ih (set_flag_collect settings flag))
  | case6 result arg option hspelling =>
      subst h
      cases hspelling ▸ spelled arg with
      | separate hname => exact (Ends.missing hname).read_up_to
  | case7 result arg option hspelling value rest next hset ih =>
      subst h
      obtain ⟨haccepts, hnext⟩ := set_value_ok hset
      cases hspelling ▸ spelled arg with
      | separate hname => exact .cons (.separate option arg value) ⟨hname, haccepts⟩ (ih hnext)
  | case8 result arg option hspelling value rest error hset =>
      subst h
      have hrefused : ¬ option.Accepts value := by
        intro haccepts
        rw [set_value_collect settings haccepts] at hset
        cases hset
      rw [set_value_refused _ hrefused, Except.error.injEq] at hset
      subst hset
      cases hspelling ▸ spelled arg with
      | separate hname => exact (Ends.refused rest hname hrefused).read_up_to
  | case9 result arg rest option value hspelling next hset ih =>
      subst h
      obtain ⟨haccepts, hnext⟩ := set_value_ok hset
      cases hspelling ▸ spelled arg with
      | joined hname heq =>
          subst heq
          exact .cons (.joined option _ value) ⟨hname, haccepts⟩ (ih hnext)
  | case10 result arg rest option value hspelling error hset =>
      subst h
      have hrefused : ¬ option.Accepts value := by
        intro haccepts
        rw [set_value_collect settings haccepts] at hset
        cases hset
      rw [set_value_refused _ hrefused, Except.error.injEq] at hset
      subst hset
      cases hspelling ▸ spelled arg with
      | joined hname heq =>
          subst heq
          exact (Ends.refusedJoined rest hname hrefused).read_up_to
  | case11 result arg rest hspelling =>
      subst h
      exact (Ends.unknown rest ((spelling_unknown_iff arg).mp hspelling)).read_up_to

/-- The arguments are read as option groups up to the first that is none, and what stands there
alone decides between a result, the help, the version and an error with its text. -/
theorem parse_args_eq_iff (argv : List Bytes) (result : ParseResult) :
    parseArgs argv = result ↔
      ∃ (groups : List OptionGroup) (rest : List Bytes),
        argv.tail = groups.flatMap (·.tokens) ++ rest ∧ (∀ group ∈ groups, group.WellFormed) ∧
          Ends (groups.map (·.setting)) rest result := by
  have hstart : ({} : ParseResult) = collect [] [] := by decide
  constructor
  · rintro rfl
    exact read_up_to_of_parse argv.tail hstart
  · intro hread
    obtain ⟨groups, rest, htokens, hgroups, hends⟩ := hread
    rw [parseArgs, htokens, hstart, parse_groups [] hgroups, List.nil_append]
    exact parse_of_ends hends

/-- A value that is refused after an output path, with the help behind it. -/
example :
    parseArgs [lit "runtime-analyzer", lit "-o", lit "a", lit "--timeout", lit "-1", lit "-h"] =
      { ok := false
        options := { outputPath := lit "a", explicitOutputPath := true }
        error := lit "--timeout requires a non-negative number of seconds" } := by
  decide +kernel

end RuntimeAnalyzer
