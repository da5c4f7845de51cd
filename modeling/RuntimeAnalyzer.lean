import RuntimeAnalyzer.BatchVerdict
import RuntimeAnalyzer.CommandLine
import RuntimeAnalyzer.Findings.Cut
import RuntimeAnalyzer.Findings.Counts
import RuntimeAnalyzer.Findings.RoundTrip
import RuntimeAnalyzer.Findings.Warnings
import RuntimeAnalyzer.Findings.Wrapping
import RuntimeAnalyzer.RunCompletion
import RuntimeAnalyzer.RunReports
import RuntimeAnalyzer.SummaryCounts
import RuntimeAnalyzer.Process.Capture
import RuntimeAnalyzer.Timeout
import RuntimeAnalyzer.Findings.Publishable
import RuntimeAnalyzer.Colours
import RuntimeAnalyzer.BatchReport
import RuntimeAnalyzer.RunBinary
import RuntimeAnalyzer.Findings.SitePaths
import RuntimeAnalyzer.Artifacts
import RuntimeAnalyzer.FileTree
import RuntimeAnalyzer.CompatibilityArgs
import RuntimeAnalyzer.EventSums
import RuntimeAnalyzer.Findings.Readings
import RuntimeAnalyzer.Findings.Safety
import RuntimeAnalyzer.SarifUris
import RuntimeAnalyzer.Process.Descriptors
import RuntimeAnalyzer.Process.Work
import RuntimeAnalyzer.Process.Elapsed
import RuntimeAnalyzer.Main
import RuntimeAnalyzer.MainStatus
import RuntimeAnalyzer.MainProgram
import RuntimeAnalyzer.MainLogs
import RuntimeAnalyzer.ReportReading
import RuntimeAnalyzer.Process.Redirection
import RuntimeAnalyzer.MainFormats
import RuntimeAnalyzer.MainFailures
import RuntimeAnalyzer.BatchShards
import RuntimeAnalyzer.Requests
import RuntimeAnalyzer.ParseOutcomes
import RuntimeAnalyzer.Process.Fate
import RuntimeAnalyzer.BatchRepeat
