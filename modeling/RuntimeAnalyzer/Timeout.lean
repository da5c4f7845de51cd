import RuntimeAnalyzer.CommandLine
import RuntimeAnalyzer.Process.Steps
import RuntimeAnalyzer.Run

/-!
# The limit of a `--timeout`

The value of a `--timeout` is a number of seconds. It becomes a count of milliseconds in the
options and a reading of the steady clock, in nanoseconds, in the runner; each of these counts has
64 bits, and the value is checked for its sign alone. `time_limit_honoured_iff` says when nothing
overflows on the way.
-/

namespace RuntimeAnalyzer

open Process (State step deadlineFrom wrap64 Errno)

/-! ## Counts of 64 bits -/

/-- A 64-bit count can have the value. -/
def Fits64 (value : Int) : Prop :=
  Int64.minValue.toInt ≤ value ∧ value ≤ Int64.maxValue.toInt

/-- Only what does not fit is wrapped. -/
theorem bmod_eq_self_iff {value : Int} : value.bmod UInt64.size = value ↔ Fits64 value := by
  have hmin : Int64.minValue.toInt = -9223372036854775808 := rfl
  have hmax : Int64.maxValue.toInt = 9223372036854775807 := rfl
  rw [Fits64, hmin, hmax, UInt64.size, Int.bmod]
  split <;> omega

theorem milliseconds_of_eq_iff {seconds : Int} :
    millisecondsOf seconds = seconds * 1000 ↔ Fits64 (seconds * 1000) :=
  bmod_eq_self_iff

/-- The sum of two counts, of which one is itself wrapped. -/
theorem wrap64_add_wrap64 (clock count : Int) :
    wrap64 (clock + wrap64 count) = wrap64 (clock + count) :=
  Int.add_bmod_bmod

theorem wrap64_eq_self_iff {value : Int} : wrap64 value = value ↔ Fits64 value :=
  bmod_eq_self_iff

/-! ## From the command line to the deadline -/

/-- A command line with a `--timeout`; the last one counts. -/
structure TimeLimit where
  program : Bytes
  line : CommandLine
  value : Bytes
  seconds : Int
  given : (values .timeout (line.groups.map (·.setting))).getLast? = some value
  accepted : timeoutSeconds value = some seconds

namespace TimeLimit

variable (limit : TimeLimit)

/-- The options that `ParseArgs` makes of the command line. -/
def options : AnalyzerOptions :=
  (parseArgs (limit.program :: limit.line.tokens)).options

/-- In a run with these options whose clock is at `clock`, the runner sets the deadline. -/
def Arms (clock : Int64) (deadline : Option Int) : Prop :=
  ∀ (tools : Tools) (outputPath : Bytes) (strerror : Errno → Bytes) (state next : State),
    state.control = .arm → state.clock = clock.toInt →
    step ⟨processSpec tools limit.options outputPath, strerror⟩ state .proceed = some next →
    next.deadline = deadline

/-- The limit is honoured by a run that starts at `clock`: no count overflows, the deadline lies
as many seconds ahead as the command line says, and a smaller limit has no later deadline. -/
structure Honoured (clock : Int64) : Prop where
  milliseconds : limit.options.timeout = limit.seconds * 1000
  positive : 0 < limit.options.timeout ↔ 0 < limit.seconds
  nanoseconds : Fits64 (limit.options.timeout * 1000000)
  deadline : 0 < limit.seconds →
    limit.Arms clock (some (clock.toInt + limit.seconds * 1000000000))
  later : 0 < limit.seconds →
    ∃ deadline, limit.Arms clock (some deadline) ∧ clock.toInt < deadline
  ordered : ∀ other : TimeLimit, 0 < other.seconds → other.seconds ≤ limit.seconds →
    ∃ earlier deadline, other.Arms clock (some earlier) ∧ limit.Arms clock (some deadline) ∧
      earlier ≤ deadline

/-- There is no limit, or it ends while the clock can still count it in nanoseconds. -/
def Countable (clock : Int64) : Prop :=
  limit.seconds = 0 ∨
    (limit.seconds * 1000000000 ≤ Int64.maxValue.toInt ∧
      clock.toInt + limit.seconds * 1000000000 ≤ Int64.maxValue.toInt)

variable {limit : TimeLimit} {clock : Int64}

theorem seconds_nonneg : 0 ≤ limit.seconds :=
  (timeout_seconds_eq_some_iff.mp limit.accepted).2

/-- The last `--timeout` gives the milliseconds of the options. -/
theorem options_timeout : limit.options.timeout = millisecondsOf limit.seconds := by
  obtain ⟨before, hvalues⟩ := List.getLast?_eq_some_iff.mp limit.given
  rw [options, parseArgs, List.tail_cons, parse_line, CommandLine.result]
  show (((values .timeout _).filterMap timeoutSeconds).map millisecondsOf).getLastD 60000 = _
  rw [hvalues, List.filterMap_append, List.filterMap_cons_some limit.accepted, List.filterMap_nil,
    List.map_append, List.map_singleton, List.getLastD_concat]

/-- The deadline is set once, from the clock and the milliseconds. -/
theorem arms_iff {deadline : Option Int} :
    limit.Arms clock deadline ↔
      deadlineFrom clock.toInt (millisecondsOf limit.seconds) = deadline := by
  constructor
  · intro h
    rw [← options_timeout]
    exact h ⟨fun _ => ⟨true, []⟩, fun _ => {}, some⟩ [] (fun _ => [])
      { control := .arm, clock := clock.toInt } _ rfl rfl rfl
  · intro h tools outputPath strerror state next hcontrol hclock hstep
    cases Process.parent_move hstep rfl with
    | arms =>
        rw [← h, ← options_timeout, ← hclock]
        rfl
    | endsLoop hhead | selects hhead =>
        rw [hcontrol] at hhead
        cases hhead

/-- A limit that can be counted fits into every count on the way. -/
theorem Countable.fits (h : limit.Countable clock) :
    Fits64 (limit.seconds * 1000) ∧ Fits64 (limit.seconds * 1000 * 1000000) ∧
      (0 < limit.seconds → Fits64 (clock.toInt + limit.seconds * 1000 * 1000000)) := by
  have hnonneg := @seconds_nonneg limit
  have hclock := clock.minValue_le_toInt
  have hmin : Int64.minValue.toInt = -9223372036854775808 := rfl
  have hmax : Int64.maxValue.toInt = 9223372036854775807 := rfl
  simp only [Countable, Fits64, hmin, hmax] at h hclock ⊢
  omega

/-- The deadline of a limit that can be counted. -/
theorem Countable.arms (h : limit.Countable clock) (hpos : 0 < limit.seconds) :
    limit.Arms clock (some (clock.toInt + limit.seconds * 1000000000)) := by
  obtain ⟨hmilliseconds, _, hsum⟩ := h.fits
  have hscale : limit.seconds * 1000 * 1000000 = limit.seconds * 1000000000 := by omega
  rw [arms_iff, milliseconds_of_eq_iff.mpr hmilliseconds, deadlineFrom, if_pos (by omega),
    wrap64_add_wrap64, wrap64_eq_self_iff.mpr (hsum hpos), hscale]

/-- A smaller limit can be counted when a larger one can. -/
theorem Countable.of_le {other : TimeLimit} (h : limit.Countable clock)
    (hpos : 0 < other.seconds) (hle : other.seconds ≤ limit.seconds) : other.Countable clock := by
  unfold Countable at h ⊢
  omega

end TimeLimit

/-- A limit is honoured exactly when the clock can count it. -/
theorem time_limit_honoured_iff (limit : TimeLimit) (clock : Int64) :
    limit.Honoured clock ↔ limit.Countable clock := by
  constructor
  · intro h
    by_cases hzero : limit.seconds = 0
    · exact .inl hzero
    · have hnonneg := @TimeLimit.seconds_nonneg limit
      have hpos : 0 < limit.seconds := by omega
      have hnanoseconds := h.nanoseconds
      have hdeadline := TimeLimit.arms_iff.mp (h.deadline hpos)
      rw [← TimeLimit.options_timeout, deadlineFrom, if_pos (h.positive.mpr hpos),
        wrap64_add_wrap64, Option.some.injEq] at hdeadline
      rw [h.milliseconds] at hnanoseconds hdeadline
      have hscale : limit.seconds * 1000 * 1000000 = limit.seconds * 1000000000 := by omega
      rw [hscale] at hnanoseconds hdeadline
      exact .inr ⟨hnanoseconds.2, (wrap64_eq_self_iff.mp hdeadline).2⟩
  · intro h
    obtain ⟨hmilliseconds, hnanoseconds, _⟩ := h.fits
    have htimeout : limit.options.timeout = limit.seconds * 1000 :=
      TimeLimit.options_timeout.trans (milliseconds_of_eq_iff.mpr hmilliseconds)
    refine ⟨htimeout, ?_, ?_, h.arms, ?_, ?_⟩
    · rw [htimeout]
      omega
    · rwa [htimeout]
    · intro hpos
      exact ⟨_, h.arms hpos, by omega⟩
    · intro other hpos hle
      have hother := (h.of_le hpos hle).arms hpos
      exact ⟨_, _, hother, h.arms (by omega), by omega⟩

/-- A command line with one `--timeout` and a source. -/
def timeLimit (value : Bytes) (seconds : Int) (h : timeoutSeconds value = some seconds) :
    TimeLimit where
  program := lit "runtime-analyzer"
  line :=
    { groups := [.separate .timeout (lit "--timeout") value]
      tail := some [lit "main.c"]
      wellFormed := by
        intro group hmem
        rw [List.mem_singleton] at hmem
        rw [hmem]
        exact ⟨by decide, seconds, timeout_seconds_eq_some_iff.mp h⟩
      complete := .inl (by decide) }
  value := value
  seconds := seconds
  given := rfl
  accepted := h

/-- A limit whose milliseconds overflow, and one whose nanoseconds do. -/
def overflowingLimits : TimeLimit × TimeLimit :=
  (timeLimit (lit "9223372036854776") 9223372036854776 (by decide),
    timeLimit (lit "9300000000") 9300000000 (by decide))

/-- The first runs without a limit, and the deadline of the second has passed before it starts. -/
theorem overflowing_limits :
    (¬ overflowingLimits.1.Honoured 0 ∧ overflowingLimits.1.Arms 0 none) ∧
      ¬ overflowingLimits.2.Honoured 0 ∧
      overflowingLimits.2.Arms 0 (some (-9146744073709551616)) := by
  have hfirst : overflowingLimits.1.Arms 0 none := TimeLimit.arms_iff.mpr (by decide)
  have hsecond : overflowingLimits.2.Arms 0 (some (-9146744073709551616)) :=
    TimeLimit.arms_iff.mpr (by decide)
  refine ⟨⟨fun h => ?_, hfirst⟩, fun h => ?_, hsecond⟩
  · have hdeadline := TimeLimit.arms_iff.mp (h.deadline (by decide))
    rw [TimeLimit.arms_iff.mp hfirst] at hdeadline
    cases hdeadline
  · have hdeadline := TimeLimit.arms_iff.mp (h.deadline (by decide))
    rw [TimeLimit.arms_iff.mp hsecond] at hdeadline
    revert hdeadline
    decide

end RuntimeAnalyzer
