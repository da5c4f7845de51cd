import RuntimeAnalyzer.Lib.Decimal
import RuntimeAnalyzer.Types

/-!
# The arguments of the command line

`parseArgs` walks over the arguments with an index that an option with a value advances twice. An
argument at an option position is recognized by its `spelling` alone, so the walk is a recursion on
the arguments that are left.
-/

namespace RuntimeAnalyzer

inductive OutputFormat
  | text
  | sarif
  deriving DecidableEq, Repr

/-- What `ParseArgs` makes of the arguments. -/
structure ParseResult where
  ok : Bool := true
  help : Bool := false
  version : Bool := false
  options : AnalyzerOptions := {}
  format : OutputFormat := .text
  /-- Why `ok` is false. -/
  error : Bytes := []
  deriving DecidableEq, Repr

/-! ## Values -/

/-- `NAME=VALUE` with a name. -/
def isValidEnvironmentAssignment (assignment : Bytes) : Bool :=
  match ListSearch.find [equals] assignment with
  | none => false
  | some eq => eq ≠ 0

/-- `std::isspace` in the C locale. -/
def isSpace (byte : Byte) : Bool :=
  byte = space || (9 ≤ byte && byte ≤ 13)

/-- The sign in front of a number: whether it is a minus, and its length. -/
def signOf : Bytes → Bool × Nat
  | 45 :: _ => (true, 1)
  | 43 :: _ => (false, 1)
  | _ => (false, 0)

/-- `std::stoll`: the number and how many bytes were consumed, unless it throws. -/
def stoll (text : Bytes) : Option (Int × Nat) :=
  let blanks := (text.takeWhile isSpace).length
  let (negative, sign) := signOf (text.drop blanks)
  let digits := (text.drop (blanks + sign)).takeWhile Decimal.isDigit
  let value : Int := if negative then -Decimal.value digits else Decimal.value digits
  if digits = [] then none
  else if Int64.minValue.toInt ≤ value ∧ value ≤ Int64.maxValue.toInt then
    some (value, blanks + sign + digits.length)
  else none

/-- The seconds of a `--timeout`, if it has a value of its own. -/
def timeoutSeconds (value : Bytes) : Option Int :=
  let (seconds, consumed) := (stoll value).getD (-1, 0)
  if consumed ≠ value.length ∨ seconds < 0 then none else some seconds

/-- A number of seconds in 64-bit milliseconds, where the multiplication is taken to wrap. -/
def millisecondsOf (seconds : Int) : Int :=
  (seconds * 1000).bmod UInt64.size

def formatOf (value : Bytes) : Option OutputFormat :=
  if value = lit "text" then some .text
  else if value = lit "sarif" then some .sarif
  else none

/-! ## Options -/

/-- The options that take no value. -/
inductive Flag
  | strictTestExit
  | noRun
  | showOutput
  | showEvents
  deriving DecidableEq, Repr

/-- The options that take a value. -/
inductive ValuedOption
  | output
  | runArg
  | env
  | cwd
  | timeout
  | testDir
  | outputDir
  | format
  deriving DecidableEq, Repr

namespace ParseResult

/-- What a flag does. -/
def setFlag (result : ParseResult) : Flag → ParseResult
  | .strictTestExit => { result with options.strictTestExit := true }
  | .noRun => { result with options.runProgram := false }
  | .showOutput => { result with options.showProgramOutput := true }
  | .showEvents => { result with options.showEvents := true }

/-- What an option does with its value, or the error. -/
def setValue (result : ParseResult) (option : ValuedOption) (value : Bytes) :
    Except Bytes ParseResult :=
  match option with
  | .output =>
      .ok { result with options.outputPath := value, options.explicitOutputPath := true }
  | .runArg => .ok { result with options.programArgs := result.options.programArgs ++ [value] }
  | .env =>
      if isValidEnvironmentAssignment value then
        .ok { result with options.environment := result.options.environment ++ [value] }
      else .error (lit "--env requires NAME=VALUE")
  | .cwd => .ok { result with options.workingDirectory := value }
  | .timeout =>
      match timeoutSeconds value with
      | some seconds => .ok { result with options.timeout := millisecondsOf seconds }
      | none => .error (lit "--timeout requires a non-negative number of seconds")
  | .testDir =>
      .ok { result with options.testDirectories := result.options.testDirectories ++ [value] }
  | .outputDir => .ok { result with options.outputDirectory := value }
  | .format =>
      match formatOf value with
      | some format => .ok { result with format := format }
      | none => .error (lit "--format requires text or sarif")

/-- Returns with an error. -/
def fail (result : ParseResult) (error : Bytes) : ParseResult :=
  { result with ok := false, error := error }

end ParseResult

/-- The error of an option, spelled `arg`, that no argument follows. -/
def missingValue (option : ValuedOption) (arg : Bytes) : Bytes :=
  match option with
  | .output => arg ++ lit " requires a value"
  | .runArg => lit "--run-arg requires a value"
  | .env => lit "--env requires NAME=VALUE"
  | .cwd => lit "--cwd requires a path"
  | .timeout => lit "--timeout requires a number of seconds"
  | .testDir => lit "--test-dir requires a path"
  | .outputDir => lit "--output-dir requires a path"
  | .format => lit "--format requires text or sarif"

/-- What an argument at an option position is. -/
inductive Spelling
  | separator
  | help
  | version
  | flag (flag : Flag)
  /-- The value is the next argument. -/
  | separate (option : ValuedOption)
  /-- The value follows an equals sign. -/
  | joined (option : ValuedOption) (value : Bytes)
  | unknown
  deriving DecidableEq, Repr

/-- The comparisons of `ParseArgs`, in their order. -/
def spelling (arg : Bytes) : Spelling :=
  if arg = lit "--" then .separator
  else if arg = lit "-h" ∨ arg = lit "--help" then .help
  else if arg = lit "--version" then .version
  else if arg = lit "-o" ∨ arg = lit "--output" then .separate .output
  else if startsWith arg (lit "--output=") then .joined .output (arg.drop 9)
  else if arg = lit "--run-arg" then .separate .runArg
  else if arg = lit "--env" then .separate .env
  else if arg = lit "--cwd" then .separate .cwd
  else if arg = lit "--timeout" then .separate .timeout
  else if arg = lit "--test-dir" then .separate .testDir
  else if arg = lit "--output-dir" then .separate .outputDir
  else if arg = lit "--strict-test-exit" then .flag .strictTestExit
  else if arg = lit "--no-run" then .flag .noRun
  else if arg = lit "--show-output" then .flag .showOutput
  else if arg = lit "--show-events" then .flag .showEvents
  else if arg = lit "--format" then .separate .format
  else if startsWith arg (lit "--format=") then .joined .format (arg.drop 9)
  else .unknown

/-! ## The loop -/

/-- The check after the loop. -/
def finishArgs (result : ParseResult) (compilerArgs : Bool) : ParseResult :=
  if (!compilerArgs || result.options.compilerArgs = []) && result.options.testDirectories = [] then
    result.fail (lit "missing compiler arguments; use -- <compiler args>")
  else result

/-- The arguments from an option position on. -/
def parseFrom (result : ParseResult) : List Bytes → ParseResult
  | [] => finishArgs result false
  | arg :: rest =>
      match spelling arg with
      -- Every argument after the separator goes to the compiler.
      | .separator =>
          finishArgs
            { result with options.compilerArgs := result.options.compilerArgs ++ rest } true
      | .help => { result with help := true }
      | .version => { result with version := true }
      | .flag flag => parseFrom (result.setFlag flag) rest
      | .separate option =>
          match rest with
          | [] => result.fail (missingValue option arg)
          | value :: rest =>
              match result.setValue option value with
              | .ok result => parseFrom result rest
              | .error error => result.fail error
      | .joined option value =>
          match result.setValue option value with
          | .ok result => parseFrom result rest
          | .error error => result.fail error
      | .unknown =>
          result.fail
            (lit "unknown analyzer option: " ++ arg ++ lit " (compiler arguments go after --)")

/-- The arguments of `main`; the first is the name of the program. -/
def parseArgs (argv : List Bytes) : ParseResult :=
  parseFrom {} argv.tail

end RuntimeAnalyzer
