import RuntimeAnalyzer.Path
import RuntimeAnalyzer.Types

/-!
# Compiler arguments and artifacts

The compiler arguments of a run and what is derived from each source of a batch: the arguments it
needs and the path of its binary.
-/

namespace RuntimeAnalyzer

def kDefaultOutputPath : Bytes :=
  lit "runtime-analyzer.out"

/-! ## Flags of the compiler -/

/-- The flag stops the compiler before an executable. -/
def isCompileOnlyFlag (arg : Bytes) : Bool :=
  arg = lit "-c" || arg = lit "-S" || arg = lit "-E" || arg = lit "-emit-llvm" ||
    arg = lit "--precompile" || arg = lit "-fsyntax-only"

/-- No executable comes out of the compiler. -/
def hasCompileOnlyAction (args : List Bytes) : Bool :=
  args.any isCompileOnlyFlag

/-- The user gave a source language with `-x`. -/
def hasLanguageOverride : List Bytes → Bool
  | [] => false
  | arg :: rest =>
      if arg = lit "-x" && !rest.isEmpty then true
      else if startsWith arg (lit "-x=") || startsWith arg (lit "-x") then true
      else hasLanguageOverride rest

/-- A `.c` source written in C++. -/
def cSourceLooksLikeCxx (source text : Bytes) : Bool :=
  if Path.extension source ≠ lit ".c" then false
  else
    contains text (lit "#include <string>") || contains text (lit "#include <iostream>") ||
      contains text (lit "std::") || contains text (lit "static_cast<") ||
      contains text (lit "reinterpret_cast<") || contains text (lit "class ") ||
      contains text (lit "namespace ") || contains text (lit "template <") ||
      contains text (lit "virtual ")

/-- The source asks for a `DEBUG` macro. -/
def sourceRequiresDebugDefine (text : Bytes) : Bool :=
  contains text (lit "#ifndef DEBUG") || contains text (lit "#if !defined(DEBUG)")

/-- Appends `-x c++` and `-DDEBUG` when the source, read as `text`, needs them and the user gave
neither. -/
def addPerSourceCompatibilityArgs (source text : Bytes) (args : List Bytes) : List Bytes :=
  let args :=
    if !hasLanguageOverride args && cSourceLooksLikeCxx source text then
      args ++ [lit "-x", lit "c++"]
    else args
  if sourceRequiresDebugDefine text &&
      !args.any fun arg => arg = lit "-DDEBUG" || arg = lit "-DDEBUG=1" then
    args ++ [lit "-DDEBUG"]
  else args

/-! ## The binary of a run -/

/-- The compiler's own output argument. -/
structure OutputArgument where
  present : Bool := false
  path : Bytes := []
  deriving DecidableEq, Repr

/-- The first `-o`, `--output`, `-o=<path>` or `--output=<path>`. -/
def findOutputArgument : List Bytes → OutputArgument
  | [] => {}
  | arg :: rest =>
      if arg = lit "-o" ∨ arg = lit "--output" then ⟨true, rest.headD []⟩
      else if startsWith arg (lit "-o=") then ⟨true, arg.drop 3⟩
      else if startsWith arg (lit "--output=") then ⟨true, arg.drop 9⟩
      else findOutputArgument rest

/-- The compiler arguments of a run and the path of its binary: `--instrument` dropped, `-o`
appended unless the compiler has an output argument. -/
def buildCompilerArguments (options : AnalyzerOptions) : List Bytes × Bytes :=
  let args := options.compilerArgs.filter (· ≠ lit "--instrument")
  let output := findOutputArgument args
  if output.present then (args, output.path)
  else
    let outputPath := if options.outputPath = [] then kDefaultOutputPath else options.outputPath
    (args ++ [lit "-o", outputPath], outputPath)

/-! ## The artifacts of a batch -/

/-- A 64-bit FNV-1a hash. -/
def stablePathHash (text : Bytes) : UInt64 :=
  text.foldl (fun hash byte => (hash ^^^ byte.toUInt64) * 1099511628211) 14695981039346656037

/-- The hash in hexadecimal, padded with zeros to 16 digits. -/
def hexDigest (value : UInt64) : Bytes :=
  ((Nat.toDigits 16 value.toNat).map Char.toUInt8).leftpad 16 48

/-- The byte stays in an artifact's name. -/
def keepsInArtifactName (byte : Byte) : Bool :=
  (97 ≤ byte && byte ≤ 122) || (65 ≤ byte && byte ≤ 90) || (48 ≤ byte && byte ≤ 57) ||
    byte = 45 || byte = 95

/-- Letters, digits, `-` and `_` only; `test` for an empty path. -/
def sanitizeArtifactName (path : Bytes) : Bytes :=
  let name := (Path.genericString path).map fun byte =>
    if keepsInArtifactName byte then byte else 95
  if name = [] then lit "test" else name

/-- Where a batch puts a source's binary. `relative` is `std::filesystem::relative` of the source,
which depends on the current directory and may fail. -/
def makeTestOutputPath (relative : Option Bytes) (options : AnalyzerOptions) (source : Bytes) :
    Bytes :=
  let relative := relative.getD (Path.filename source)
  Path.append options.outputDirectory
    (sanitizeArtifactName (Path.dropExtension relative) ++ lit "_" ++
      hexDigest (stablePathHash (Path.genericString relative)))

end RuntimeAnalyzer
