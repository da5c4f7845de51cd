import RuntimeAnalyzer.CliArgs

/-!
# The arguments a source needs

`AddPerSourceCompatibilityArgs` only appends, and what it appends is seen by its own two guards, so
a second application changes nothing (`compatibility_args_extend`). The guard on `-DDEBUG` knows two
spellings of the definition and the compiler knows more, so a user's definition is overridden when
it is in another one (`user_debug_kept_iff`).
-/

namespace RuntimeAnalyzer

/-! ## What is appended -/

/-- A spelling of the definition that the guard on `-DDEBUG` knows. -/
def isDebugFlag (arg : Bytes) : Bool :=
  arg = lit "-DDEBUG" || arg = lit "-DDEBUG=1"

/-- What is appended for the language. -/
def languageArgs (source text : Bytes) (args : List Bytes) : List Bytes :=
  if !hasLanguageOverride args && cSourceLooksLikeCxx source text then [lit "-x", lit "c++"] else []

/-- What is appended for the macro. -/
def debugArgs (text : Bytes) (args : List Bytes) : List Bytes :=
  if sourceRequiresDebugDefine text && !args.any isDebugFlag then [lit "-DDEBUG"] else []

/-- The guard on the macro does not look at what was appended for the language. -/
theorem any_debug_flag_append_language (source text : Bytes) (args : List Bytes) :
    (args ++ languageArgs source text args).any isDebugFlag = args.any isDebugFlag := by
  have hlanguage : (languageArgs source text args).any isDebugFlag = false := by
    unfold languageArgs
    split
    · decide
    · rfl
  rw [List.any_append, hlanguage, Bool.or_false]

theorem add_compatibility_args_eq (source text : Bytes) (args : List Bytes) :
    addPerSourceCompatibilityArgs source text args =
      args ++ (languageArgs source text args ++ debugArgs text args) := by
  have hwith : (if !hasLanguageOverride args && cSourceLooksLikeCxx source text then
      args ++ [lit "-x", lit "c++"] else args) = args ++ languageArgs source text args := by
    unfold languageArgs
    split <;> simp
  have hflag := any_debug_flag_append_language source text args
  unfold addPerSourceCompatibilityArgs
  rw [hwith]
  change (if sourceRequiresDebugDefine text &&
    !(args ++ languageArgs source text args).any isDebugFlag then _ else _) = _
  rw [hflag, ← List.append_assoc]
  unfold debugArgs
  split <;> simp

/-! ## The guards -/

/-- A `-x` at the end of the list overrides the language as any other does. -/
theorem has_language_override_eq (args : List Bytes) :
    hasLanguageOverride args = args.any (startsWith · (lit "-x")) := by
  induction args with
  | nil => rfl
  | cons arg rest ih =>
      have hjoined : startsWith arg (lit "-x=") = true → startsWith arg (lit "-x") = true := by
        simp only [startsWith_iff]
        exact fun h => (show lit "-x" <+: lit "-x=" by decide).trans h
      have hexact : arg = lit "-x" → startsWith arg (lit "-x") = true := by
        rintro rfl
        decide
      rw [List.any_cons, ← ih, hasLanguageOverride]
      cases hstarts : startsWith arg (lit "-x") with
      | true => simp
      | false =>
          have hne : arg ≠ lit "-x" := fun h => by simp [hexact h] at hstarts
          have hnot : startsWith arg (lit "-x=") = false := by
            rw [← Bool.not_eq_true]
            exact fun h => by simp [hjoined h] at hstarts
          simp [hne, hnot]

theorem has_language_override_append (args more : List Bytes) :
    hasLanguageOverride (args ++ more) =
      (hasLanguageOverride args || hasLanguageOverride more) := by
  simp only [has_language_override_eq, List.any_append]

/-- What was appended for the language overrides it. -/
theorem language_args_append (source text : Bytes) (args more : List Bytes) :
    languageArgs source text (args ++ (languageArgs source text args ++ more)) = [] := by
  refine if_neg ?_
  rw [has_language_override_append, has_language_override_append]
  cases hoverride : hasLanguageOverride args with
  | true => simp
  | false =>
      cases hlooks : cSourceLooksLikeCxx source text with
      | false => simp
      | true =>
          have hadded : languageArgs source text args = [lit "-x", lit "c++"] := by
            simp [languageArgs, hoverride, hlooks]
          have hseen : hasLanguageOverride [lit "-x", lit "c++"] = true := by decide
          simp [hadded, hseen]

/-- What was appended for the macro defines it. -/
theorem debug_args_append (text : Bytes) (args added : List Bytes) :
    debugArgs text (args ++ (added ++ debugArgs text args)) = [] := by
  refine if_neg ?_
  rw [List.any_append, List.any_append]
  cases hflag : args.any isDebugFlag with
  | true => simp
  | false =>
      cases hrequires : sourceRequiresDebugDefine text with
      | false => simp
      | true =>
          have hadded : debugArgs text args = [lit "-DDEBUG"] := by
            rw [debugArgs, hflag, hrequires]
            rfl
          have hseen : [lit "-DDEBUG"].any isDebugFlag = true := by decide
          simp [hadded, hseen]

/-! ## An idempotent extension -/

/-- What the arguments of a source become. -/
structure ExtendsOnce (source text : Bytes) (args result : List Bytes) : Prop where
  /-- The user's arguments are kept, and one of four lists follows them. -/
  extends_by : ∃ added : List Bytes, result = args ++ added ∧
    (added = [] ∨ added = [lit "-x", lit "c++"] ∨ added = [lit "-DDEBUG"] ∨
      added = [lit "-x", lit "c++", lit "-DDEBUG"]) ∧
    ([lit "-x", lit "c++"] <+: added ↔
      cSourceLooksLikeCxx source text = true ∧ ∀ arg ∈ args, ¬ lit "-x" <+: arg)
  again : addPerSourceCompatibilityArgs source text result = result

theorem language_args_iff (source text : Bytes) (args : List Bytes) :
    languageArgs source text args = [lit "-x", lit "c++"] ↔
      cSourceLooksLikeCxx source text = true ∧ ∀ arg ∈ args, ¬ lit "-x" <+: arg := by
  have hoverride : hasLanguageOverride args = false ↔ ∀ arg ∈ args, ¬ lit "-x" <+: arg := by
    simp [has_language_override_eq, ← startsWith_iff]
  rw [← hoverride, languageArgs]
  cases hasLanguageOverride args <;> cases cSourceLooksLikeCxx source text <;> simp

/-- Only `-x c++` is appended for the language, and only `-DDEBUG` for the macro. -/
theorem added_args_cases (source text : Bytes) (args : List Bytes) :
    (languageArgs source text args = [] ∨ languageArgs source text args = [lit "-x", lit "c++"]) ∧
      (debugArgs text args = [] ∨ debugArgs text args = [lit "-DDEBUG"]) := by
  unfold languageArgs debugArgs
  constructor
  · split <;> simp
  · split <;> simp

/-- The arguments of a source are the user's and what it needs, and they need nothing more. -/
theorem compatibility_args_extend (source text : Bytes) (args : List Bytes) :
    ExtendsOnce source text args (addPerSourceCompatibilityArgs source text args) := by
  have hlanguage := language_args_iff source text args
  refine ⟨⟨languageArgs source text args ++ debugArgs text args,
    add_compatibility_args_eq source text args, ?_, ?_⟩, ?_⟩
  · obtain ⟨hlanguage | hlanguage, hdebug | hdebug⟩ := added_args_cases source text args <;>
      simp [hlanguage, hdebug]
  · rw [← hlanguage]
    have hother : lit "-x" ≠ lit "-DDEBUG" := by decide
    obtain ⟨hlanguage | hlanguage, hdebug | hdebug⟩ := added_args_cases source text args <;>
      simp [hlanguage, hdebug, hother]
  · rw [add_compatibility_args_eq source text args, add_compatibility_args_eq,
      language_args_append, debug_args_append, List.append_nil, List.append_nil]

/-! ## The macro -/

/-- What an argument does to the macro. -/
inductive MacroSetting
  | defined (value : Bytes)
  | undefined
  deriving DecidableEq, Repr

/-- The setting that `-D` makes of `DEBUG`; the value is 1 when the definition gives none. -/
def definitionOfDebug (definition : Bytes) : Option MacroSetting :=
  if definition = lit "DEBUG" then some (.defined (lit "1"))
  else if startsWith definition (lit "DEBUG=") then some (.defined (definition.drop 6))
  else none

/-- The setting that `-U` makes of `DEBUG`. -/
def undefinitionOfDebug (name : Bytes) : Option MacroSetting :=
  if name = lit "DEBUG" then some .undefined else none

/-- The setting of an argument, with the one after it. -/
def debugSetting (arg : Bytes) (next : Option Bytes) : Option MacroSetting :=
  if arg = lit "-D" then next.bind definitionOfDebug
  else if arg = lit "-U" then next.bind undefinitionOfDebug
  else if startsWith arg (lit "-D") then definitionOfDebug (arg.drop 2)
  else if startsWith arg (lit "-U") then undefinitionOfDebug (arg.drop 2)
  else none

/-- The settings of `DEBUG` on a command line, in order. -/
def debugSettings : List Bytes → List MacroSetting
  | [] => []
  | arg :: rest => (debugSetting arg rest.head?).toList ++ debugSettings rest

/-- The setting that the compiler is left with: the last one. -/
def debugInEffect (args : List Bytes) : Option MacroSetting :=
  (debugSettings args).getLast?

/-- The user defines `DEBUG`. -/
def DefinesDebug (args : List Bytes) : Prop :=
  ∃ value, MacroSetting.defined value ∈ debugSettings args

/-- The user's definition of `DEBUG` is kept: no `-DDEBUG` follows it. -/
def KeepsUserDebug (source text : Bytes) (args : List Bytes) : Prop :=
  DefinesDebug args →
    ∃ added : List Bytes, addPerSourceCompatibilityArgs source text args = args ++ added ∧
      lit "-DDEBUG" ∉ added ∧ debugInEffect (args ++ added) = debugInEffect args

/-- Arguments that are no definition by themselves leave the last `-D` or `-U` as it was. -/
theorem debug_settings_append (args : List Bytes) {more : List Bytes}
    (h : ∀ next ∈ more.head?, definitionOfDebug next = none ∧ undefinitionOfDebug next = none) :
    debugSettings (args ++ more) = debugSettings args ++ debugSettings more := by
  have hlast (arg : Bytes) : debugSetting arg more.head? = debugSetting arg none := by
    cases hhead : more.head? with
    | none => rfl
    | some next =>
        obtain ⟨hdefinition, hundefinition⟩ := h next (by simp [hhead])
        simp [debugSetting, hdefinition, hundefinition]
  induction args with
  | nil => rfl
  | cons arg rest ih =>
      have hnext : debugSetting arg (rest ++ more).head? = debugSetting arg rest.head? := by
        cases rest with
        | nil => exact hlast arg
        | cons next rest => rfl
      rw [List.cons_append, debugSettings, debugSettings, hnext, ih, List.append_assoc]

/-- What is appended for the language leaves the macro as the user set it. -/
theorem debug_in_effect_language (source text : Bytes) (args : List Bytes) :
    debugInEffect (args ++ languageArgs source text args) = debugInEffect args := by
  obtain ⟨hnone | hsome, -⟩ := added_args_cases source text args
  · rw [hnone, List.append_nil]
  · rw [hsome, debugInEffect, debug_settings_append args (by decide)]
    have hsettings : debugSettings [lit "-x", lit "c++"] = [] := by decide
    rw [hsettings, List.append_nil]
    rfl

/-- Where `-DDEBUG` is appended the macro is 1, whatever the user defined it as. -/
theorem debug_in_effect_appended (args : List Bytes) :
    debugInEffect (args ++ [lit "-DDEBUG"]) = some (.defined (lit "1")) := by
  have hsettings : debugSettings [lit "-DDEBUG"] = [.defined (lit "1")] := by decide
  rw [debugInEffect, debug_settings_append args (by decide), hsettings,
    List.getLast?_append_of_ne_nil _ (by simp), List.getLast?_singleton]

/-- The user's definition is kept exactly when the source asks for none or one of the two spellings
the guard knows is among the arguments. -/
theorem user_debug_kept_iff (source text : Bytes) (args : List Bytes) :
    KeepsUserDebug source text args ↔
      (DefinesDebug args → sourceRequiresDebugDefine text = true →
        lit "-DDEBUG" ∈ args ∨ lit "-DDEBUG=1" ∈ args) := by
  have hflag : args.any isDebugFlag = true ↔ lit "-DDEBUG" ∈ args ∨ lit "-DDEBUG=1" ∈ args := by
    simp [isDebugFlag, and_or_left, exists_or]
  have hresult := add_compatibility_args_eq source text args
  have hother : lit "-DDEBUG" ∉ languageArgs source text args := by
    obtain ⟨hnone | hsome, -⟩ := added_args_cases source text args
    · simp [hnone]
    · rw [hsome]
      decide
  rw [← hflag]
  unfold KeepsUserDebug
  refine forall_congr' fun _ => ?_
  constructor
  · intro ⟨added, hadded, habsent, _⟩ hrequires
    rw [hresult] at hadded
    by_contra hunknown
    refine habsent ?_
    rw [← List.append_cancel_left hadded, debugArgs, if_pos (by simp [hrequires, hunknown])]
    simp
  · intro hknown
    have hnone : debugArgs text args = [] := by
      unfold debugArgs
      refine if_neg ?_
      simpa using hknown
    refine ⟨languageArgs source text args, ?_, hother, debug_in_effect_language source text args⟩
    rw [hresult, hnone, List.append_nil]

/-- A user's `-DDEBUG=2` is followed by `-DDEBUG`, and the macro becomes 1. -/
theorem user_debug_overridden :
    ¬ KeepsUserDebug (lit "a.c") (lit "#ifndef DEBUG") [lit "-DDEBUG=2"] ∧
      addPerSourceCompatibilityArgs (lit "a.c") (lit "#ifndef DEBUG") [lit "-DDEBUG=2"] =
        [lit "-DDEBUG=2", lit "-DDEBUG"] := by
  have hresult : addPerSourceCompatibilityArgs (lit "a.c") (lit "#ifndef DEBUG")
      [lit "-DDEBUG=2"] = [lit "-DDEBUG=2"] ++ [lit "-DDEBUG"] := by
    decide +kernel
  refine ⟨fun hkept => ?_, hresult⟩
  obtain ⟨added, hadded, habsent, -⟩ := hkept ⟨lit "2", by decide⟩
  rw [hresult] at hadded
  rw [← List.append_cancel_left hadded] at habsent
  simp at habsent

end RuntimeAnalyzer
