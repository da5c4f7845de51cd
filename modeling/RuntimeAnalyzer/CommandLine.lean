import Mathlib.Data.List.Induction
import RuntimeAnalyzer.ParseArgs

/-!
# The grammar of the command line

A command line is a list of option groups and what follows the separator, if there is one.
`collect` says what the options are worth together: every value of a repeatable option, and the
last one of any other.
-/

namespace RuntimeAnalyzer

/-! ## Option groups -/

def Flag.name : Flag → Bytes
  | .strictTestExit => lit "--strict-test-exit"
  | .noRun => lit "--no-run"
  | .showOutput => lit "--show-output"
  | .showEvents => lit "--show-events"

namespace ValuedOption

/-- The spellings whose value is the next argument. -/
def names : ValuedOption → List Bytes
  | output => [lit "-o", lit "--output"]
  | runArg => [lit "--run-arg"]
  | env => [lit "--env"]
  | cwd => [lit "--cwd"]
  | timeout => [lit "--timeout"]
  | testDir => [lit "--test-dir"]
  | outputDir => [lit "--output-dir"]
  | format => [lit "--format"]

/-- The spellings that their value follows at once. -/
def joinedNames : ValuedOption → List Bytes
  | output => [lit "--output="]
  | format => [lit "--format="]
  | _ => []

/-- A value that the option takes. -/
def Accepts : ValuedOption → Bytes → Prop
  | env, value => ∃ name text, value = name ++ equals :: text ∧ name ≠ [] ∧ equals ∉ name
  | timeout, value => ∃ seconds, stoll value = some (seconds, value.length) ∧ 0 ≤ seconds
  | format, value => value = lit "text" ∨ value = lit "sarif"
  | _, _ => True

end ValuedOption

/-- What a group sets. -/
inductive Setting
  | flag (flag : Flag)
  | value (option : ValuedOption) (value : Bytes)
  deriving DecidableEq, Repr

/-- The option that is set. -/
def Setting.key : Setting → Flag ⊕ ValuedOption
  | .flag name => .inl name
  | .value option _ => .inr option

/-- The arguments of one option. -/
inductive OptionGroup
  | flag (flag : Flag)
  | separate (option : ValuedOption) (name value : Bytes)
  | joined (option : ValuedOption) (name value : Bytes)
  deriving DecidableEq, Repr

namespace OptionGroup

def tokens : OptionGroup → List Bytes
  | .flag option => [option.name]
  | separate _ name value => [name, value]
  | joined _ name value => [name ++ value]

def setting : OptionGroup → Setting
  | .flag option => .flag option
  | separate option _ value | joined option _ value => .value option value

/-- The name is one of the option, and the value is one it takes. -/
def WellFormed : OptionGroup → Prop
  | flag _ => True
  | separate option name value => name ∈ option.names ∧ option.Accepts value
  | joined option name value => name ∈ option.joinedNames ∧ option.Accepts value

end OptionGroup

/-! ## What the settings are worth -/

/-- The values of an option, in order. -/
def values (option : ValuedOption) (settings : List Setting) : List Bytes :=
  settings.filterMap fun
    | .value given value => if given = option then some value else none
    | .flag _ => none

def given (flag : Flag) (settings : List Setting) : Bool :=
  settings.contains (.flag flag)

/-- The result of a command line. -/
def collect (settings : List Setting) (tail : List Bytes) : ParseResult where
  options :=
    { compilerArgs := tail
      programArgs := values .runArg settings
      environment := values .env settings
      testDirectories := values .testDir settings
      outputPath := (values .output settings).getLastD (lit "runtime-analyzer.out")
      outputDirectory := (values .outputDir settings).getLastD (lit "runtime-analyzer-artifacts")
      workingDirectory := (values .cwd settings).getLastD []
      timeout := (((values .timeout settings).filterMap timeoutSeconds).map millisecondsOf).getLastD
        60000
      explicitOutputPath := values .output settings ≠ []
      runProgram := !given .noRun settings
      showProgramOutput := given .showOutput settings
      showEvents := given .showEvents settings
      strictTestExit := given .strictTestExit settings }
  format := ((values .format settings).filterMap formatOf).getLastD .text

/-- A command line in the grammar: it has compiler arguments or names a test directory. -/
structure CommandLine where
  groups : List OptionGroup
  /-- What follows the separator, if there is one. -/
  tail : Option (List Bytes)
  wellFormed : ∀ group ∈ groups, group.WellFormed
  complete : tail.getD [] ≠ [] ∨ values .testDir (groups.map (·.setting)) ≠ []

/-- The separator and what follows it. -/
def tailTokens : Option (List Bytes) → List Bytes
  | none => []
  | some tail => lit "--" :: tail

def CommandLine.tokens (line : CommandLine) : List Bytes :=
  line.groups.flatMap (·.tokens) ++ tailTokens line.tail

def CommandLine.result (line : CommandLine) : ParseResult :=
  collect (line.groups.map (·.setting)) (line.tail.getD [])

/-! ## Spellings -/

/-- What the spelling of an argument says of it. -/
inductive Spelled (arg : Bytes) : Spelling → Prop
  | separator (h : arg = lit "--") : Spelled arg .separator
  | help (h : arg = lit "-h" ∨ arg = lit "--help") : Spelled arg .help
  | version (h : arg = lit "--version") : Spelled arg .version
  | flag {flag : Flag} (h : arg = flag.name) : Spelled arg (.flag flag)
  | separate {option : ValuedOption} (h : arg ∈ option.names) : Spelled arg (.separate option)
  | joined {option : ValuedOption} {name value : Bytes} (hname : name ∈ option.joinedNames)
      (h : arg = name ++ value) : Spelled arg (.joined option value)
  | unknown : Spelled arg .unknown

theorem eq_append_drop {arg head : Bytes} (h : startsWith arg head = true) :
    arg = head ++ arg.drop head.length := by
  obtain ⟨rest, rfl⟩ := startsWith_iff.mp h
  simp

theorem spelled_ite {arg : Bytes} {c : Prop} [Decidable c] {this that : Spelling}
    (hthen : c → Spelled arg this) (helse : Spelled arg that) :
    Spelled arg (if c then this else that) := by
  split
  · exact hthen ‹_›
  · exact helse

theorem spelled (arg : Bytes) : Spelled arg (spelling arg) := by
  have hseparate : ∀ {option : ValuedOption} {name : Bytes}, option.names = [name] → arg = name →
      Spelled arg (.separate option) :=
    fun hnames h => .separate (by simp [hnames, h])
  unfold spelling
  refine spelled_ite .separator <| spelled_ite .help <| spelled_ite .version ?_
  refine spelled_ite (fun h => .separate (by simpa [ValuedOption.names] using h)) ?_
  refine spelled_ite (fun h => .joined (List.mem_singleton_self _) (eq_append_drop h)) ?_
  refine spelled_ite (hseparate rfl) <| spelled_ite (hseparate rfl) <|
    spelled_ite (hseparate rfl) <| spelled_ite (hseparate rfl) <| spelled_ite (hseparate rfl) <|
      spelled_ite (hseparate rfl) ?_
  refine spelled_ite (fun h => .flag h) <| spelled_ite (fun h => .flag h) <|
    spelled_ite (fun h => .flag h) <| spelled_ite (fun h => .flag h) ?_
  refine spelled_ite (hseparate rfl) ?_
  exact spelled_ite (fun h => .joined (List.mem_singleton_self _) (eq_append_drop h)) .unknown

theorem spelling_separator : spelling (lit "--") = .separator := by
  decide

theorem spelling_flag (flag : Flag) : spelling flag.name = .flag flag := by
  cases flag <;> decide

theorem spelling_separate {option : ValuedOption} {name : Bytes} (h : name ∈ option.names) :
    spelling name = .separate option := by
  cases option <;> simp only [ValuedOption.names, List.mem_cons, List.not_mem_nil, or_false] at h
  case output => rcases h with rfl | rfl <;> decide
  all_goals
    rw [h]
    decide

/-- A text that does not begin as it should is not the whole. -/
theorem append_ne {head text : Bytes} (value : Bytes) (h : startsWith text head = false) :
    head ++ value ≠ text := by
  rintro rfl
  have hpre : startsWith (head ++ value) head = true :=
    startsWith_iff.mpr (List.prefix_append _ _)
  simp [hpre] at h

theorem spelling_joined {option : ValuedOption} {name : Bytes} (value : Bytes)
    (h : name ∈ option.joinedNames) : spelling (name ++ value) = .joined option value := by
  cases option <;>
    simp only [ValuedOption.joinedNames, List.mem_cons, List.not_mem_nil, or_false] at h
  all_goals
    subst h
    simp (disch := decide) only [spelling, append_ne, or_self, if_false]
    rfl

/-! ## Values -/

theorem env_assignment_iff (value : Bytes) :
    isValidEnvironmentAssignment value = true ↔ ValuedOption.env.Accepts value := by
  unfold isValidEnvironmentAssignment
  -- The first `=` ends the name, so a name holds none.
  by_cases hmem : equals ∈ value
  · obtain ⟨name, text, rfl, hname⟩ := List.eq_append_cons_of_mem hmem
    have hfind : ListSearch.find [equals] (name ++ equals :: text) = some name.length :=
      ListSearch.find_append_of_not_mem [] text hname
    simp only [hfind, decide_not, Bool.not_eq_true', decide_eq_false_iff_not]
    constructor
    · intro hlength
      exact ⟨name, text, rfl, fun hempty => hlength (by simp [hempty]), hname⟩
    · intro haccepts
      obtain ⟨name', text', heq, hne, hname'⟩ := haccepts
      have hfind' := ListSearch.find_append_of_not_mem [] text' hname'
      rw [List.cons_append, List.nil_append, ← heq, hfind, Option.some.injEq] at hfind'
      rw [hfind']
      exact fun hlength => hne (List.length_eq_zero_iff.mp hlength)
  · have hfind : ListSearch.find [equals] value = none := by
      rw [ListSearch.find_eq_none_iff, List.singleton_infix_iff]
      exact hmem
    rw [hfind]
    refine iff_of_false (by simp) fun haccepts => hmem ?_
    obtain ⟨name, text, rfl, _⟩ := haccepts
    simp

theorem timeout_seconds_eq_some_iff {value : Bytes} {seconds : Int} :
    timeoutSeconds value = some seconds ↔
      stoll value = some (seconds, value.length) ∧ 0 ≤ seconds := by
  unfold timeoutSeconds
  cases hstoll : stoll value with
  | none => simp
  | some number =>
      obtain ⟨found, consumed⟩ := number
      simp only [Option.getD_some, Option.ite_none_left_eq_some, Option.some.injEq, Prod.mk.injEq,
        not_or, Int.not_lt, not_not]
      constructor
      · intro h
        obtain ⟨⟨hconsumed, hnonneg⟩, rfl⟩ := h
        exact ⟨⟨rfl, hconsumed⟩, hnonneg⟩
      · intro h
        obtain ⟨⟨rfl, hconsumed⟩, hnonneg⟩ := h
        exact ⟨⟨hconsumed, hnonneg⟩, rfl⟩

theorem format_of_isSome_iff (value : Bytes) :
    (∃ format, formatOf value = some format) ↔ ValuedOption.format.Accepts value := by
  unfold formatOf ValuedOption.Accepts
  split
  · exact iff_of_true ⟨_, rfl⟩ (.inl ‹_›)
  · rename_i htext
    split
    · exact iff_of_true ⟨_, rfl⟩ (.inr ‹_›)
    · rename_i hsarif
      exact iff_of_false (by simp) (by simp [htext, hsarif])

/-! ## Collecting -/

theorem values_append (option : ValuedOption) (settings more : List Setting) :
    values option (settings ++ more) = values option settings ++ values option more :=
  List.filterMap_append

theorem values_value (option given : ValuedOption) (value : Bytes) :
    values option [.value given value] = if given = option then [value] else [] := by
  by_cases h : given = option <;> simp [values, h]

theorem values_flag (option : ValuedOption) (flag : Flag) : values option [.flag flag] = [] :=
  rfl

theorem given_append (flag : Flag) (settings more : List Setting) :
    given flag (settings ++ more) = (given flag settings || given flag more) := by
  simp [given]

theorem given_value (flag : Flag) (option : ValuedOption) (value : Bytes) :
    given flag [.value option value] = false := by
  simp [given]

theorem given_flag (flag other : Flag) :
    given flag [.flag other] = decide (flag = other) := by
  simp [given]

/-- A flag is set where it is collected. -/
theorem set_flag_collect (settings : List Setting) (flag : Flag) :
    (collect settings []).setFlag flag = collect (settings ++ [.flag flag]) [] := by
  cases flag <;>
    simp [collect, ParseResult.setFlag, values_append, values_flag, given_append, given_flag]

/-- A value the option takes is set where it is collected. -/
theorem set_value_collect (settings : List Setting) {option : ValuedOption} {value : Bytes}
    (h : option.Accepts value) :
    (collect settings []).setValue option value =
      .ok (collect (settings ++ [.value option value]) []) := by
  cases option with
  | env =>
      rw [ParseResult.setValue, if_pos ((env_assignment_iff value).mpr h)]
      simp [collect, values_append, values_value, given_append, given_value]
  | timeout =>
      obtain ⟨seconds, hseconds⟩ := h
      simp [collect, ParseResult.setValue, timeout_seconds_eq_some_iff.mpr hseconds, values_append,
        values_value, given_append, given_value]
  | format =>
      obtain ⟨format, hformat⟩ := (format_of_isSome_iff value).mpr h
      simp [collect, ParseResult.setValue, hformat, values_append, values_value, given_append,
        given_value]
  | _ =>
      simp [collect, ParseResult.setValue, values_append, values_value, given_append, given_value]

/-- Any other value is an error. -/
theorem set_value_error (result : ParseResult) {option : ValuedOption} {value : Bytes}
    (h : ¬ option.Accepts value) :
    ∃ error, error ≠ [] ∧ result.setValue option value = .error error := by
  cases option with
  | env =>
      rw [← env_assignment_iff, Bool.not_eq_true] at h
      exact ⟨lit "--env requires NAME=VALUE", by simp, by simp [ParseResult.setValue, h]⟩
  | timeout =>
      have hnone : timeoutSeconds value = none := by
        rw [Option.eq_none_iff_forall_ne_some]
        exact fun seconds hseconds => h ⟨seconds, timeout_seconds_eq_some_iff.mp hseconds⟩
      exact ⟨lit "--timeout requires a non-negative number of seconds", by simp,
        by simp [ParseResult.setValue, hnone]⟩
  | format =>
      have hnone : formatOf value = none := by
        rw [Option.eq_none_iff_forall_ne_some]
        exact fun format hformat => h ((format_of_isSome_iff value).mp ⟨format, hformat⟩)
      exact ⟨lit "--format requires text or sarif", by simp,
        by simp [ParseResult.setValue, hnone]⟩
  | _ => exact absurd trivial h

theorem set_value_ok {settings : List Setting} {option : ValuedOption} {value : Bytes}
    {next : ParseResult} (h : (collect settings []).setValue option value = .ok next) :
    option.Accepts value ∧ next = collect (settings ++ [.value option value]) [] := by
  have haccepts : option.Accepts value := by
    by_contra hrejects
    obtain ⟨error, _, herror⟩ := set_value_error (collect settings []) hrejects
    rw [herror] at h
    cases h
  rw [set_value_collect settings haccepts] at h
  cases h
  exact ⟨haccepts, rfl⟩

/-! ## Command lines -/

/-- A group is read as what it sets. -/
theorem parse_group (settings : List Setting) {group : OptionGroup} (h : group.WellFormed)
    (rest : List Bytes) :
    parseFrom (collect settings []) (group.tokens ++ rest) =
      parseFrom (collect (settings ++ [group.setting]) []) rest := by
  cases group with
  | flag flag =>
      simp only [OptionGroup.tokens, List.cons_append, List.nil_append, parseFrom, spelling_flag]
      rw [set_flag_collect]
      rfl
  | separate option name value =>
      simp only [OptionGroup.tokens, List.cons_append, List.nil_append, parseFrom,
        spelling_separate h.1]
      rw [set_value_collect settings h.2]
      rfl
  | joined option name value =>
      simp only [OptionGroup.tokens, List.cons_append, List.nil_append, parseFrom,
        spelling_joined value h.1]
      rw [set_value_collect settings h.2]
      rfl

/-- So are several. -/
theorem parse_groups (settings : List Setting) {groups : List OptionGroup}
    (h : ∀ group ∈ groups, group.WellFormed) (rest : List Bytes) :
    parseFrom (collect settings []) (groups.flatMap (·.tokens) ++ rest) =
      parseFrom (collect (settings ++ groups.map (·.setting)) []) rest := by
  induction groups generalizing settings with
  | nil => simp
  | cons group groups ih =>
      rw [List.flatMap_cons, List.append_assoc, parse_group settings (h group (by simp)),
        ih _ fun other hmem => h other (by simp [hmem])]
      simp

theorem finish_collect (settings : List Setting) (tail : List Bytes) (compilerArgs : Bool)
    (htail : compilerArgs = false → tail = [])
    (h : tail ≠ [] ∨ values .testDir settings ≠ []) :
    finishArgs (collect settings tail) compilerArgs = collect settings tail := by
  rw [finishArgs, if_neg]
  rcases h with hne | hne
  · have hsep : compilerArgs = true := by
      by_contra hsep
      exact hne (htail (by simpa using hsep))
    simp [collect, hsep, hne]
  · simp [collect, hne]

/-- A command line of the grammar is read as what its groups set. -/
theorem parse_line (line : CommandLine) : parseFrom {} line.tokens = line.result := by
  have hstart : ({} : ParseResult) = collect [] [] := by decide
  rw [hstart, CommandLine.tokens, parse_groups [] line.wellFormed, List.nil_append]
  have hcomplete := line.complete
  unfold CommandLine.result
  cases htail : line.tail with
  | none =>
      rw [htail] at hcomplete
      exact finish_collect _ _ _ (fun _ => rfl) hcomplete
  | some tail =>
      rw [htail] at hcomplete
      exact finish_collect _ _ _ (by simp) hcomplete

/-! ## Arguments that are accepted -/

/-- The option takes the next argument for its value. -/
def takesValue (arg : Bytes) : Bool :=
  [ValuedOption.output, .runArg, .env, .cwd, .timeout, .testDir, .outputDir, .format].any
    fun option => arg ∈ option.names

/-- The arguments at option positions before the separator. -/
def optionPositions : List Bytes → List Bytes
  | [] => []
  | arg :: rest =>
      if arg = lit "--" then []
      else if takesValue arg then
        match rest with
        | [] => [arg]
        | _ :: rest => arg :: optionPositions rest
      else arg :: optionPositions rest

/-- The options that only ask for the help or the version. -/
def informationNames : List Bytes :=
  [lit "-h", lit "--help", lit "--version"]

theorem takes_value_iff (arg : Bytes) :
    takesValue arg = true ↔ ∃ option, spelling arg = .separate option := by
  unfold takesValue
  constructor
  · intro h
    obtain ⟨option, _, hname⟩ := List.any_eq_true.mp h
    exact ⟨option, spelling_separate (by simpa using hname)⟩
  · intro h
    obtain ⟨option, hspelling⟩ := h
    rw [List.any_eq_true]
    refine ⟨option, by cases option <;> decide, ?_⟩
    cases hspelling ▸ spelled arg with
    | separate hname => simpa using hname

theorem option_positions_separate {arg : Bytes} {option : ValuedOption} (value : Bytes)
    (rest : List Bytes) (h : spelling arg = .separate option) :
    optionPositions (arg :: value :: rest) = arg :: optionPositions rest := by
  have hseparator : arg ≠ lit "--" := by
    rintro rfl
    rw [spelling_separator] at h
    cases h
  simp [optionPositions, hseparator, (takes_value_iff arg).mpr ⟨option, h⟩]

/-- The rest of some arguments, read after some settings, is in the grammar. -/
def InGrammar (settings : List Setting) (args : List Bytes) : Prop :=
  ∃ (groups : List OptionGroup) (tail : Option (List Bytes)),
    args = groups.flatMap (·.tokens) ++ tailTokens tail ∧
    (∀ group ∈ groups, group.WellFormed) ∧
    (tail.getD [] ≠ [] ∨ values .testDir (settings ++ groups.map (·.setting)) ≠ [])

theorem InGrammar.cons {settings : List Setting} (group : OptionGroup) {rest : List Bytes}
    (hgroup : group.WellFormed) (h : InGrammar (settings ++ [group.setting]) rest) :
    InGrammar settings (group.tokens ++ rest) := by
  obtain ⟨groups, tail, rfl, hgroups, hcomplete⟩ := h
  refine ⟨group :: groups, tail, by simp, ?_, by simpa using hcomplete⟩
  intro other hmem
  rcases List.mem_cons.mp hmem with rfl | hmem
  · exact hgroup
  · exact hgroups other hmem

/-- An option without a separate value stands alone. -/
theorem option_positions_alone {arg : Bytes} (rest : List Bytes) (hseparator : arg ≠ lit "--")
    (h : ∀ option, spelling arg ≠ .separate option) :
    optionPositions (arg :: rest) = arg :: optionPositions rest := by
  have halone : takesValue arg = false := by
    rw [← Bool.not_eq_true, takes_value_iff]
    exact fun hvalue => hvalue.elim h
  cases rest <;> simp [optionPositions, hseparator, halone]

/-- What was complete before the check is accepted by it, and nothing else. -/
theorem finish_collect_ok {settings : List Setting} {tail : List Bytes} {compilerArgs : Bool}
    (h : (finishArgs (collect settings tail) compilerArgs).ok = true) :
    tail ≠ [] ∨ values .testDir settings ≠ [] := by
  by_contra hincomplete
  rw [not_or, not_not, not_not] at hincomplete
  obtain ⟨rfl, hnone⟩ := hincomplete
  simp [finishArgs, collect, hnone, ParseResult.fail] at h

/-- No argument asks for the help or the version where an option stands. -/
def AsksForNothing (args : List Bytes) : Prop :=
  ∀ arg ∈ optionPositions args, arg ∉ informationNames

theorem AsksForNothing.rest {arg : Bytes} {rest : List Bytes} (h : AsksForNothing (arg :: rest))
    (hseparator : spelling arg ≠ .separator) (halone : ∀ option, spelling arg ≠ .separate option) :
    AsksForNothing rest := by
  have hne : arg ≠ lit "--" := by
    rintro rfl
    exact hseparator spelling_separator
  intro other hmem
  refine h other ?_
  rw [option_positions_alone rest hne halone]
  exact List.mem_cons_of_mem _ hmem

/-- Such an argument asks for neither. -/
theorem AsksForNothing.head {arg : Bytes} {rest : List Bytes} (h : AsksForNothing (arg :: rest)) :
    spelling arg ≠ .help ∧ spelling arg ≠ .version := by
  have hmem : (spelling arg = .help ∨ spelling arg = .version) → arg ∈ informationNames := by
    rintro (hspelling | hspelling)
    · cases hspelling ▸ spelled arg with
      | help h => rcases h with rfl | rfl <;> decide
    · cases hspelling ▸ spelled arg with
      | version h => rw [h]; decide
  have hposition : spelling arg = .help ∨ spelling arg = .version →
      arg ∈ optionPositions (arg :: rest) := by
    intro hspelling
    have hne : arg ≠ lit "--" := by
      rintro rfl
      rw [spelling_separator] at hspelling
      simp at hspelling
    rw [option_positions_alone rest hne (by rcases hspelling with h | h <;> simp [h])]
    exact List.mem_cons_self
  rw [← not_or]
  exact fun hspelling => h arg (hposition hspelling) (hmem hspelling)

/-- Accepted arguments are in the grammar. -/
theorem in_grammar_of_ok {settings : List Setting} {result : ParseResult} {args : List Bytes}
    (hresult : result = collect settings []) (hasks : AsksForNothing args)
    (hok : (parseFrom result args).ok = true) : InGrammar settings args := by
  -- The groups read so far are in `settings`, and each accepted argument adds one to them.
  fun_induction parseFrom result args generalizing settings with
  | case1 result =>
      subst hresult
      exact ⟨[], none, rfl, (by simp), by simpa using finish_collect_ok hok⟩
  | case2 result arg rest hspelling =>
      subst hresult
      obtain rfl : arg = lit "--" := by
        cases hspelling ▸ spelled arg with
        | separator h => exact h
      have hcomplete := @finish_collect_ok settings rest true hok
      exact ⟨[], some rest, rfl, (by simp), by simpa using hcomplete⟩
  | case3 result arg rest hspelling => exact absurd hspelling hasks.head.1
  | case4 result arg rest hspelling => exact absurd hspelling hasks.head.2
  | case5 result arg rest flag hspelling ih =>
      subst hresult
      obtain rfl : arg = flag.name := by
        cases hspelling ▸ spelled arg with
        | flag h => exact h
      have hrest := hasks.rest (by simp [hspelling]) (by simp [hspelling])
      exact .cons (.flag flag) trivial (ih (set_flag_collect settings flag) hrest hok)
  | case6 result arg option hspelling => cases hok
  | case7 result arg option hspelling value rest next hset ih =>
      subst hresult
      obtain ⟨haccepts, hnext⟩ := set_value_ok hset
      have hname : arg ∈ option.names := by
        cases hspelling ▸ spelled arg with
        | separate h => exact h
      have hrest : AsksForNothing rest := by
        intro other hmem
        refine hasks other ?_
        rw [option_positions_separate value rest hspelling]
        exact List.mem_cons_of_mem _ hmem
      exact .cons (.separate option arg value) ⟨hname, haccepts⟩ (ih hnext hrest hok)
  | case8 result arg option hspelling value rest error hset => cases hok
  | case9 result arg rest option value hspelling next hset ih =>
      subst hresult
      obtain ⟨haccepts, hnext⟩ := set_value_ok hset
      have hrest := hasks.rest (by simp [hspelling]) (by simp [hspelling])
      cases hspelling ▸ spelled arg with
      | joined hname h =>
          subst h
          exact .cons (.joined option _ value) ⟨hname, haccepts⟩ (ih hnext hrest hok)
  | case10 result arg rest option value hspelling error hset => cases hok
  | case11 result arg rest hspelling => cases hok

/-! ## Arguments that are not accepted -/

theorem missing_value_ne (option : ValuedOption) (arg : Bytes) : missingValue option arg ≠ [] := by
  cases option <;> simp [missingValue]

theorem error_of_set_value {result : ParseResult} {option : ValuedOption} {value error : Bytes}
    (h : result.setValue option value = .error error) : error ≠ [] := by
  cases option <;> simp only [ParseResult.setValue] at h <;> (try split at h) <;> cases h <;>
    simp

theorem ok_of_set_value {result next : ParseResult} {option : ValuedOption} {value : Bytes}
    (h : result.setValue option value = .ok next) : next.ok = result.ok := by
  cases option <;> simp only [ParseResult.setValue] at h <;> (try split at h) <;> cases h <;> rfl

theorem ok_of_set_flag (result : ParseResult) (flag : Flag) :
    (result.setFlag flag).ok = result.ok := by
  cases flag <;> rfl

theorem error_of_finish {result : ParseResult} {compilerArgs : Bool} (hstart : result.ok = true)
    (h : (finishArgs result compilerArgs).ok = false) :
    (finishArgs result compilerArgs).error ≠ [] := by
  unfold finishArgs at h ⊢
  split at h
  · rename_i hincomplete
    rw [if_pos hincomplete]
    simp [ParseResult.fail]
  · simp [hstart] at h

/-- Arguments that are not accepted leave an error. -/
theorem error_of_not_ok {result : ParseResult} {args : List Bytes} (hstart : result.ok = true)
    (h : (parseFrom result args).ok = false) : (parseFrom result args).error ≠ [] := by
  fun_induction parseFrom result args with
  | case1 result => exact error_of_finish hstart h
  | case2 result arg rest _ => exact error_of_finish (by exact hstart) h
  | case3 result arg rest _ => simp [hstart] at h
  | case4 result arg rest _ => simp [hstart] at h
  | case5 result arg rest flag _ ih => exact ih (by rw [ok_of_set_flag, hstart]) h
  | case6 result arg option _ => exact missing_value_ne option arg
  | case7 result arg option _ value rest next hset ih =>
      exact ih (by rw [ok_of_set_value hset, hstart]) h
  | case8 result arg option _ value rest error hset => exact error_of_set_value hset
  | case9 result arg rest option value _ next hset ih =>
      exact ih (by rw [ok_of_set_value hset, hstart]) h
  | case10 result arg rest option value _ error hset => exact error_of_set_value hset
  | case11 result arg rest _ => simp [ParseResult.fail]

/-! ## The grammar -/

/-- The groups of each option are the same, in the same order. -/
def SameOrder (groups others : List OptionGroup) : Prop :=
  ∀ key, groups.filter (·.setting.key = key) = others.filter (·.setting.key = key)

theorem values_filter (option : ValuedOption) (settings : List Setting) :
    values option (settings.filter (·.key = .inr option)) = values option settings := by
  rw [values, values, List.filterMap_filter]
  refine List.filterMap_congr fun setting _ => ?_
  cases setting with
  | flag flag => simp [Setting.key]
  | value given value => by_cases h : given = option <;> simp [Setting.key, h]

theorem given_filter (flag : Flag) (settings : List Setting) :
    given flag (settings.filter (·.key = .inl flag)) = given flag settings := by
  simp [given, List.contains_eq_mem, List.mem_filter, Setting.key]

/-- What is collected depends on the groups of each option only. -/
theorem collect_of_same_order {groups others : List OptionGroup} (h : SameOrder groups others)
    (tail : List Bytes) :
    collect (groups.map (·.setting)) tail = collect (others.map (·.setting)) tail := by
  have hfilter : ∀ key, (groups.map (·.setting)).filter (·.key = key) =
      (others.map (·.setting)).filter (·.key = key) := by
    intro key
    rw [List.filter_map, List.filter_map]
    exact congrArg _ (h key)
  -- A field of the result looks at the settings of one option only.
  have hvalues : ∀ option, values option (groups.map (·.setting)) =
      values option (others.map (·.setting)) := by
    intro option
    rw [← values_filter, hfilter, values_filter]
  have hgiven : ∀ flag, given flag (groups.map (·.setting)) =
      given flag (others.map (·.setting)) := by
    intro flag
    rw [← given_filter, hfilter, given_filter]
  simp only [collect, hvalues, hgiven]

/-- Arguments that ask for no help or version are accepted exactly when they are in the grammar, and
then give what their groups set, in any order of the options; any others leave an error. -/
theorem parse_args_grammar {argv : List Bytes} (hasks : AsksForNothing argv.tail) :
    ((parseArgs argv).ok = true ↔ ∃ line : CommandLine, argv.tail = line.tokens) ∧
      (∀ line : CommandLine, argv.tail = line.tokens → parseArgs argv = line.result ∧
        ∀ other : CommandLine, other.tail = line.tail → SameOrder other.groups line.groups →
          ∀ program, parseArgs (program :: other.tokens) = parseArgs argv) ∧
      ((parseArgs argv).ok = false → (parseArgs argv).error ≠ []) := by
  have hline : ∀ line : CommandLine, argv.tail = line.tokens → parseArgs argv = line.result := by
    intro line htokens
    rw [parseArgs, htokens, parse_line]
  refine ⟨⟨fun hok => ?_, fun hgrammar => ?_⟩, fun line htokens => ⟨hline line htokens, ?_⟩, ?_⟩
  · obtain ⟨groups, tail, htokens, hgroups, hcomplete⟩ :=
      @in_grammar_of_ok [] {} argv.tail (by decide) hasks hok
    exact ⟨⟨groups, tail, hgroups, hcomplete⟩, htokens⟩
  · obtain ⟨line, htokens⟩ := hgrammar
    rw [hline line htokens]
    rfl
  · intro other htail horder program
    rw [hline line htokens, parseArgs, List.tail_cons, parse_line, CommandLine.result,
      CommandLine.result, htail, collect_of_same_order horder]
  · exact error_of_not_ok rfl

/-- A limit, an output of the analyzer's own, and a program to compile. -/
theorem parse_args_grammar_one :
    (parseArgs [lit "runtime-analyzer", lit "--timeout", lit " +5", lit "--output=a", lit "--",
      lit "main.c"]).ok = true := by
  refine (parse_args_grammar ?_).1.mpr ⟨⟨[.separate .timeout (lit "--timeout") (lit " +5"),
    .joined .output (lit "--output=") (lit "a")], some [lit "main.c"], ?_, .inl ?_⟩, ?_⟩
  · unfold AsksForNothing
    decide
  · intro group hmem
    simp only [List.mem_cons, List.not_mem_nil, or_false] at hmem
    rcases hmem with rfl | rfl
    · exact ⟨by decide, 5, by decide, by decide⟩
    · exact ⟨by decide, trivial⟩
  · decide
  · decide

end RuntimeAnalyzer
