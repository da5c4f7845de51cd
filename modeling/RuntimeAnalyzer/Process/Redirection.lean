import RuntimeAnalyzer.Lib.Descriptors
import RuntimeAnalyzer.Process.Model

/-!
# The descriptors of the program

The child of `RunProcess` puts the pipes on its standard output and error, and `/dev/null` on its
input. New descriptors take the lowest free numbers, so where the analyzer itself lacks some of the
three, the calls meet their own descriptors there. `redirected_iff` says when the program gets what
it should.
-/

namespace RuntimeAnalyzer

namespace Process

open Descriptors (Table get set lowest obtain close setCloseOnExec dup2 exec get_set get_close
  get_exec get_map get_dup2 lowest_eq_iff)

variable {File : Type*}

/-! ## The calls -/

/-- What a descriptor of the child is open for. -/
inductive Handle (File : Type*)
  | inherited (file : File)
  | pipe (fd : Fd)
  | null
  deriving DecidableEq, Repr

/-- What the analyzer hands down. -/
def inherit (table : Table File) : Table (Handle File) :=
  table.map fun entry => entry.map fun held => ⟨.inherited held.file, held.closeOnExec⟩

/-- The numbers of the pipes: `stdout_pipe` and `stderr_pipe`. -/
structure PipeNumbers where
  stdoutRead : Nat
  stdoutWrite : Nat
  stderrRead : Nat
  stderrWrite : Nat
  deriving DecidableEq, Repr

/-- The two calls of `pipe`, each of which opens its read end first. -/
def makePipes (table : Table (Handle File)) : PipeNumbers × Table (Handle File) :=
  let (stdoutRead, table) := obtain table (.pipe ⟨.stdout, false⟩)
  let (stdoutWrite, table) := obtain table (.pipe ⟨.stdout, true⟩)
  let (stderrRead, table) := obtain table (.pipe ⟨.stderr, false⟩)
  let (stderrWrite, table) := obtain table (.pipe ⟨.stderr, true⟩)
  (⟨stdoutRead, stdoutWrite, stderrRead, stderrWrite⟩, table)

/-- The read ends are not for the program. -/
def markPipes (pipes : PipeNumbers) (table : Table (Handle File)) : Table (Handle File) :=
  setCloseOnExec (setCloseOnExec table pipes.stdoutRead) pipes.stderrRead

/-- The calls of the child on the pipes. -/
def redirectOutput (pipes : PipeNumbers) (table : Table (Handle File)) : Table (Handle File) :=
  let table := close table pipes.stdoutRead
  let table := close table pipes.stderrRead
  let table := dup2 table pipes.stdoutWrite 1
  let table := dup2 table pipes.stderrWrite 2
  close (close table pipes.stdoutWrite) pipes.stderrWrite

/-- The calls of the child on `/dev/null`, which may not open. -/
def redirectInput (nullOpens : Bool) (table : Table (Handle File)) : Table (Handle File) :=
  if nullOpens then
    let (fd, table) := obtain table .null
    close (dup2 table fd 0) fd
  else table

/-- The descriptors of the program, from those of the analyzer. -/
def programDescriptors (nullOpens : Bool) (table : Table File) : Table (Handle File) :=
  let (pipes, made) := makePipes (inherit table)
  exec (redirectInput nullOpens (redirectOutput pipes (markPipes pipes made)))

/-! ## What the program gets -/

/-- The program reads from `/dev/null` where that opens, writes to the pipes, and has the other
descriptors of the analyzer. -/
structure Redirected (nullOpens : Bool) (table : Table File) : Prop where
  stdin : get (programDescriptors nullOpens table) 0 =
    if nullOpens then some ⟨.null, false⟩ else get (exec (inherit table)) 0
  stdout : get (programDescriptors nullOpens table) 1 = some ⟨.pipe ⟨.stdout, true⟩, false⟩
  stderr : get (programDescriptors nullOpens table) 2 = some ⟨.pipe ⟨.stderr, true⟩, false⟩
  others : ∀ fd, 3 ≤ fd →
    get (programDescriptors nullOpens table) fd = get (exec (inherit table)) fd

theorem get_inherit (table : Table File) (fd : Nat) :
    get (inherit table) fd =
      (get table fd).map fun held => ⟨.inherited held.file, held.closeOnExec⟩ :=
  get_map rfl table fd

theorem get_inherit_eq_none_iff {table : Table File} {fd : Nat} :
    get (inherit table) fd = none ↔ get table fd = none := by
  rw [get_inherit, Option.map_eq_none_iff]

/-! ## The pipes -/

/-- A descriptor that is obtained has the lowest free number. -/
structure Obtains (table : Table (Handle File)) (handle : Handle File) (fd : Nat)
    (next : Table (Handle File)) : Prop where
  free : get table fd = none
  lowest : ∀ other < fd, get table other ≠ none
  entries : ∀ other, get next other = if other = fd then some ⟨handle, false⟩ else get table other

theorem obtains (table : Table (Handle File)) (handle : Handle File) :
    Obtains table handle (obtain table handle).1 (obtain table handle).2 := by
  obtain ⟨hfree, hlowest⟩ := lowest_eq_iff.mp (rfl : lowest table = (obtain table handle).1)
  exact ⟨hfree, hlowest, fun other => get_set ..⟩

section
variable {table next : Table (Handle File)} {handle other : Handle File} {fd fd' number : Nat}

/-- What is free afterwards was free, and is another number. -/
theorem Obtains.free_before (h : Obtains table handle fd next) (hfree : get next number = none) :
    number ≠ fd ∧ get table number = none := by
  rw [h.entries] at hfree
  split at hfree
  · cases hfree
  · rename_i hne
    exact ⟨hne, hfree⟩

/-- What is obtained next has a greater number. -/
theorem Obtains.lt (h : Obtains table handle fd next) {after : Table (Handle File)}
    (h' : Obtains next other fd' after) : fd < fd' := by
  obtain ⟨hne, hfree⟩ := h.free_before h'.free
  by_contra hle
  exact h.lowest fd' (by omega) hfree

end

/-- The numbers of the pipes are free and in order, and the first two are the lowest. -/
structure TakesLowest (table : Table (Handle File)) (pipes : PipeNumbers) : Prop where
  ordered : pipes.stdoutRead < pipes.stdoutWrite ∧ pipes.stdoutWrite < pipes.stderrRead ∧
    pipes.stderrRead < pipes.stderrWrite
  free : ∀ fd ∈ [pipes.stdoutRead, pipes.stdoutWrite, pipes.stderrRead, pipes.stderrWrite],
    get table fd = none
  lowest : ∀ fd < pipes.stdoutWrite, get table fd = none → fd = pipes.stdoutRead

/-- What the pipes are in the table. -/
structure Holds (table made : Table (Handle File)) (pipes : PipeNumbers) : Prop where
  stdoutWrite : get made pipes.stdoutWrite = some ⟨.pipe ⟨.stdout, true⟩, false⟩
  stderrWrite : get made pipes.stderrWrite = some ⟨.pipe ⟨.stderr, true⟩, false⟩
  others : ∀ fd ∉ [pipes.stdoutRead, pipes.stdoutWrite, pipes.stderrRead, pipes.stderrWrite],
    get made fd = get table fd

theorem pipes_of_obtains {table first second third made : Table (Handle File)}
    {pipes : PipeNumbers}
    (h₁ : Obtains table (.pipe ⟨.stdout, false⟩) pipes.stdoutRead first)
    (h₂ : Obtains first (.pipe ⟨.stdout, true⟩) pipes.stdoutWrite second)
    (h₃ : Obtains second (.pipe ⟨.stderr, false⟩) pipes.stderrRead third)
    (h₄ : Obtains third (.pipe ⟨.stderr, true⟩) pipes.stderrWrite made) :
    TakesLowest table pipes ∧ Holds table made pipes := by
  obtain ⟨hne₂, hfree₂⟩ := h₁.free_before h₂.free
  obtain ⟨hne₃, hfree₃⟩ := h₂.free_before h₃.free
  obtain ⟨hne₄, hfree₄⟩ := h₃.free_before h₄.free
  have hlt₁ := h₁.lt h₂
  have hlt₂ := h₂.lt h₃
  have hlt₃ := h₃.lt h₄
  refine ⟨⟨⟨hlt₁, hlt₂, hlt₃⟩, ?_, fun fd hlt hnone => ?_⟩, ⟨?_, ?_, fun fd hfd => ?_⟩⟩
  · simp only [List.forall_mem_cons, List.not_mem_nil, false_imp_iff, implies_true, and_true]
    exact ⟨h₁.free, hfree₂, (h₁.free_before hfree₃).2,
      (h₁.free_before (h₂.free_before hfree₄).2).2⟩
  -- Below the second number only the first was free.
  · by_contra hne
    have hopen := h₂.lowest fd hlt
    rw [h₁.entries, if_neg hne] at hopen
    exact hopen hnone
  · rw [h₄.entries, if_neg (by omega), h₃.entries, if_neg (by omega), h₂.entries, if_pos rfl]
  · rw [h₄.entries, if_pos rfl]
  · simp only [List.mem_cons, List.not_mem_nil, or_false, not_or] at hfd
    rw [h₄.entries, if_neg hfd.2.2.2, h₃.entries, if_neg hfd.2.2.1, h₂.entries, if_neg hfd.2.1,
      h₁.entries, if_neg hfd.1]

theorem make_pipes (table : Table (Handle File)) :
    TakesLowest table (makePipes table).1 ∧
      Holds table (makePipes table).2 (makePipes table).1 :=
  pipes_of_obtains (obtains ..) (obtains ..) (obtains ..) (obtains ..)

/-! ## The child -/

variable {table made : Table (Handle File)} {pipes : PipeNumbers}

/-- Marking the read ends changes nothing else. -/
theorem Holds.mark (htakes : TakesLowest table pipes) (h : Holds table made pipes) :
    Holds table (markPipes pipes made) pipes := by
  obtain ⟨hlt₁, hlt₂, hlt₃⟩ := htakes.ordered
  have hsame : ∀ fd, fd ≠ pipes.stdoutRead → fd ≠ pipes.stderrRead →
      get (markPipes pipes made) fd = get made fd := by
    intro fd hstdout hstderr
    rw [markPipes, setCloseOnExec, get_set, if_neg hstderr, setCloseOnExec, get_set, if_neg hstdout]
  refine ⟨?_, ?_, fun fd hfd => ?_⟩
  · rw [hsame _ (by omega) (by omega), h.stdoutWrite]
  · rw [hsame _ (by omega) (by omega), h.stderrWrite]
  · rw [← h.others fd hfd]
    simp only [List.mem_cons, List.not_mem_nil, or_false, not_or] at hfd
    exact hsame fd hfd.1 hfd.2.2.1

/-- The descriptors of the child when the pipes are in place. -/
theorem get_redirect_output (htakes : TakesLowest table pipes) (h : Holds table made pipes)
    (fd : Nat) :
    get (redirectOutput pipes made) fd =
      if fd = pipes.stdoutWrite ∨ fd = pipes.stderrWrite then none
      else if fd = 2 then some ⟨.pipe ⟨.stderr, true⟩, false⟩
      else if fd = 1 then some ⟨.pipe ⟨.stdout, true⟩, false⟩
      else get table fd := by
  obtain ⟨hlt₁, hlt₂, hlt₃⟩ := htakes.ordered
  have hstdout : get (close (close made pipes.stdoutRead) pipes.stderrRead) pipes.stdoutWrite =
      some ⟨.pipe ⟨.stdout, true⟩, false⟩ := by
    rw [get_close, if_neg (by omega), get_close, if_neg (by omega), h.stdoutWrite]
  have hone := get_dup2 hstdout 1
  have hstderr : get (dup2 (close (close made pipes.stdoutRead) pipes.stderrRead)
      pipes.stdoutWrite 1) pipes.stderrWrite = some ⟨.pipe ⟨.stderr, true⟩, false⟩ := by
    rw [hone, if_neg (by omega), get_close, if_neg (by omega), get_close, if_neg (by omega),
      h.stderrWrite]
  rw [redirectOutput, get_close, get_close, get_dup2 hstderr, hone, get_close, get_close]
  by_cases hwrite : fd = pipes.stdoutWrite ∨ fd = pipes.stderrWrite
  · rw [if_pos hwrite]
    rcases hwrite with rfl | rfl
    · rw [if_neg (by omega), if_pos rfl]
    · rw [if_pos rfl]
  · rw [if_neg hwrite]
    rw [not_or] at hwrite
    rw [if_neg hwrite.2, if_neg hwrite.1]
    refine if_congr Iff.rfl rfl (if_congr Iff.rfl rfl ?_)
    -- The read ends are where the analyzer had nothing.
    split
    · rename_i hread
      rw [hread, htakes.free _ (by simp)]
    · rename_i hstderrRead
      split
      · rename_i hread
        rw [hread, htakes.free _ (by simp)]
      · rename_i hstdoutRead
        exact h.others fd (by simp [hstdoutRead, hstderrRead, hwrite])

/-- The descriptors of the child when the input is in place as well. -/
theorem get_redirect_input (table : Table (Handle File)) :
    (get table 0 = none ∧ ∀ fd, get (redirectInput true table) fd = get table fd) ∨
      (get table 0 ≠ none ∧ ∀ fd, get (redirectInput true table) fd =
        if fd = 0 then some ⟨.null, false⟩ else get table fd) := by
  have hobtains := obtains table .null
  have hnull : get (obtain table .null).2 (obtain table .null).1 = some ⟨.null, false⟩ := by
    rw [hobtains.entries, if_pos rfl]
  have hget : ∀ fd, get (redirectInput true table) fd =
      if fd = (obtain table .null).1 then none
      else if fd = 0 then some ⟨.null, false⟩ else get table fd := by
    intro fd
    rw [redirectInput, if_pos rfl]
    dsimp only
    rw [get_close, get_dup2 hnull, hobtains.entries]
    split <;> rfl
  cases hzero : get table 0 with
  | none =>
      -- The file itself becomes descriptor 0, and is closed.
      have hfirst : (obtain table .null).1 = 0 := by
        by_contra hne
        exact hobtains.lowest 0 (by omega) hzero
      refine .inl ⟨rfl, fun fd => ?_⟩
      rw [hget, hfirst]
      split
      · rename_i hfd
        rw [hfd, hzero]
      · rfl
  | some entry =>
      refine .inr ⟨by simp, fun fd => ?_⟩
      rw [hget]
      split
      · rename_i hfd
        have hfree := hobtains.free
        rw [← hfd] at hfree
        rw [if_neg fun h => ?_, hfree]
        rw [h, hzero] at hfree
        cases hfree
      · rfl

/-- At most one of the three standard descriptors is closed. -/
def OneClosedAtMost (table : Table File) : Prop :=
  ∀ fd < 3, ∀ other < 3, get table fd = none → get table other = none → fd = other

/-- The descriptors of the child in front of `exec`. -/
theorem get_program_descriptors (nullOpens : Bool) (table : Table File) :
    ∃ pipes, TakesLowest (inherit table) pipes ∧ ∃ output : Table (Handle File),
      (∀ fd, get output fd =
        if fd = pipes.stdoutWrite ∨ fd = pipes.stderrWrite then none
        else if fd = 2 then some ⟨.pipe ⟨.stderr, true⟩, false⟩
        else if fd = 1 then some ⟨.pipe ⟨.stdout, true⟩, false⟩
        else get (inherit table) fd) ∧
      ∀ fd, get (programDescriptors nullOpens table) fd =
        (get (redirectInput nullOpens output) fd).filter (!·.closeOnExec) := by
  obtain ⟨htakes, hholds⟩ := make_pipes (inherit table)
  exact ⟨_, htakes, _, get_redirect_output htakes (hholds.mark htakes), fun fd => get_exec ..⟩

/-- The program gets its descriptors exactly if the analyzer has an input, unless `/dev/null` does
not open, and lacks no more than one of the three. -/
theorem redirected_iff (nullOpens : Bool) (table : Table File) :
    Redirected nullOpens table ↔
      (nullOpens = true → get table 0 ≠ none) ∧ OneClosedAtMost table := by
  obtain ⟨pipes, htakes, output, houtput, hprogram⟩ := get_program_descriptors nullOpens table
  obtain ⟨hlt₁, hlt₂, hlt₃⟩ := htakes.ordered
  have hfree : ∀ fd ∈ [pipes.stdoutRead, pipes.stdoutWrite, pipes.stderrRead, pipes.stderrWrite],
      get table fd = none := fun fd hmem => get_inherit_eq_none_iff.mp (htakes.free fd hmem)
  have hinput : ∀ fd, fd ≠ 0 → get (redirectInput nullOpens output) fd = get output fd := by
    intro fd hne
    cases nullOpens with
    | false => rfl
    | true =>
        rcases get_redirect_input output with ⟨-, hsame⟩ | ⟨-, hsame⟩
        · exact hsame fd
        · rw [hsame, if_neg hne]
  have hclosed : OneClosedAtMost table ↔ 3 ≤ pipes.stdoutWrite := by
    constructor
    · intro hone
      by_contra hlt
      have hsame := hone pipes.stdoutRead (by omega) pipes.stdoutWrite (by omega)
        (hfree _ (by simp)) (hfree _ (by simp))
      omega
    · intro hle fd hlt other hlt' hnone hnone'
      rw [htakes.lowest fd (by omega) (get_inherit_eq_none_iff.mpr hnone),
        htakes.lowest other (by omega) (get_inherit_eq_none_iff.mpr hnone')]
  rw [hclosed]
  constructor
  · intro h
    have hwrite : 3 ≤ pipes.stdoutWrite := by
      by_contra hlt
      have hcases : pipes.stdoutWrite = 1 ∨ pipes.stdoutWrite = 2 := by omega
      rcases hcases with hone | htwo
      · have hstdout := h.stdout
        rw [hprogram, hinput 1 (by decide), houtput, if_pos (.inl hone.symm)] at hstdout
        cases hstdout
      · have hstderr := h.stderr
        rw [hprogram, hinput 2 (by decide), houtput, if_pos (.inl htwo.symm)] at hstderr
        cases hstderr
    refine ⟨?_, hwrite⟩
    rintro rfl hzero
    have hstdin := h.stdin
    have hnone : get output 0 = none := by
      rw [houtput, if_neg (by omega), if_neg (by decide), if_neg (by decide),
        get_inherit_eq_none_iff.mpr hzero]
    rcases get_redirect_input output with ⟨-, hsame⟩ | ⟨hopen, -⟩
    · rw [hprogram, hsame, hnone] at hstdin
      cases hstdin
    · exact hopen hnone
  · rintro ⟨hzero, hle⟩
    have hzeroOutput : get output 0 = get (inherit table) 0 := by
      rw [houtput, if_neg (by omega), if_neg (by decide), if_neg (by decide)]
    refine ⟨?_, ?_, ?_, fun fd hfd => ?_⟩
    · cases nullOpens with
      | false =>
          rw [hprogram, if_neg (by decide), get_exec]
          exact congrArg (Option.filter _) hzeroOutput
      | true =>
          rcases get_redirect_input output with ⟨hnone, -⟩ | ⟨-, hsame⟩
          · rw [hzeroOutput, get_inherit_eq_none_iff] at hnone
            exact absurd hnone (hzero rfl)
          · rw [hprogram, hsame, if_pos rfl, if_pos rfl]
            rfl
    · rw [hprogram, hinput 1 (by decide), houtput, if_neg (by omega), if_neg (by decide),
        if_pos rfl]
      rfl
    · rw [hprogram, hinput 2 (by decide), houtput, if_neg (by omega), if_pos rfl]
      rfl
    · rw [hprogram, hinput fd (by omega), houtput, get_exec]
      split
      · rename_i hpipe
        have hnone : get (inherit table) fd = none := by
          rcases hpipe with rfl | rfl <;> exact htakes.free _ (by simp)
        rw [hnone]
      · rw [if_neg (by omega), if_neg (by omega)]

/-- Without an input of its own, the analyzer closes `/dev/null` again where it put it. -/
example :
    programDescriptors true [none, some ⟨"log", false⟩, some ⟨"log", false⟩] =
      [none, some ⟨.pipe ⟨.stdout, true⟩, false⟩, some ⟨.pipe ⟨.stderr, true⟩, false⟩, none, none,
        none] := by
  decide

end Process

end RuntimeAnalyzer
