import Mathlib.Data.List.TakeWhile
import RuntimeAnalyzer.Lib.Environ
import RuntimeAnalyzer.Process.Types

/-!
# The program of a process run

What the child asks of the system before it becomes the program: its directory, its environment
and its arguments. `getenv_program` says what the program finds under a name.
-/

namespace RuntimeAnalyzer

namespace Process

/-! ## C strings and the environment -/

/-- `text.c_str()`, as a C function reads it: up to the first NUL. -/
def cString (text : Bytes) : Bytes :=
  text.takeWhile (· ≠ 0)

/-- `getenv` -/
def getenv (environ : List Bytes) (name : Bytes) : Option Bytes :=
  Environ.get equals environ name

/-- `setenv(name, value, 1)`, which refuses a name that is empty or has an equals sign. -/
def setenv (environ : List Bytes) (name value : Bytes) : List Bytes :=
  if name = [] || name.contains equals then environ else Environ.set equals name value environ

/-! ## Before `execv` -/

/-- The loop body over `spec.environment`. -/
def setAssignment (environ : List Bytes) (assignment : Bytes) : List Bytes :=
  match ListSearch.find [equals] assignment with
  | none => environ
  | some eq =>
      if eq = 0 then environ
      else setenv environ (cString (assignment.take eq)) (cString (assignment.drop (eq + 1)))

/-- What the child asks for. -/
structure Program where
  /-- The argument of `chdir`, if it is called. -/
  directory : Option Bytes
  /-- The first argument of `execv`, and the strings of its second one. -/
  path : Bytes
  argv : List Bytes
  /-- The environment `execv` passes on. -/
  environ : List Bytes
  deriving DecidableEq, Repr

/-- The program of a child that inherits an environment. -/
def programOf (environ : List Bytes) (spec : ProcessSpec) : Program where
  directory := if spec.workingDirectory = [] then none else some (cString spec.workingDirectory)
  path := cString spec.executable
  argv := (spec.executable :: spec.args).map cString
  environ := spec.environment.foldl setAssignment environ

/-! ## What the program finds -/

/-- The name and the value that an assignment sets, if it sets any. -/
def assignmentOf (assignment : Bytes) : Option (Bytes × Bytes) :=
  match ListSearch.find [equals] assignment with
  | none => none
  | some eq =>
      if cString (assignment.take eq) = [] then none
      else some (cString (assignment.take eq), cString (assignment.drop (eq + 1)))

theorem c_string_of_not_mem {text : Bytes} (h : 0 ∉ text) : cString text = text := by
  rw [cString, List.takeWhile_eq_self_iff]
  intro byte hmem
  simpa using fun hzero : byte = 0 => h (hzero ▸ hmem)

theorem c_string_subset (text : Bytes) : ∀ byte ∈ cString text, byte ∈ text :=
  fun _ hmem => (List.takeWhile_prefix _).subset hmem

/-- An assignment ends its name at its first equals sign, so `setenv` refuses an empty one only. -/
theorem set_assignment_eq (environ : List Bytes) (assignment : Bytes) :
    setAssignment environ assignment =
      Environ.assign equals environ (assignmentOf assignment).toList := by
  unfold setAssignment assignmentOf
  cases hfind : ListSearch.find [equals] assignment with
  | none => rfl
  | some eq =>
      have hname : equals ∉ cString (assignment.take eq) :=
        fun hmem => (ListSearch.find_singleton_eq_some hfind).2 (c_string_subset _ _ hmem)
      by_cases hzero : eq = 0
      · simp [hzero, cString, Environ.assign]
      · by_cases hempty : cString (assignment.take eq) = [] <;>
          simp [hzero, hempty, hname, setenv, Environ.assign]

/-- The environment of the program is what it inherits with each assignment set in turn. -/
theorem environ_program_of (environ : List Bytes) (spec : ProcessSpec) :
    (programOf environ spec).environ =
      Environ.assign equals environ (spec.environment.filterMap assignmentOf) := by
  show spec.environment.foldl setAssignment environ = _
  induction spec.environment generalizing environ with
  | nil => rfl
  | cons assignment rest ih =>
      rw [List.foldl_cons, ih, set_assignment_eq, List.filterMap_cons]
      cases assignmentOf assignment <;> rfl

/-- What is set has a name of the environment. -/
theorem not_mem_of_assignment_of {assignment name value : Bytes}
    (h : assignmentOf assignment = some (name, value)) : equals ∉ name := by
  unfold assignmentOf at h
  cases hfind : ListSearch.find [equals] assignment with
  | none => simp [hfind] at h
  | some eq =>
      simp only [hfind, Option.ite_none_left_eq_some, Option.some.injEq, Prod.mk.injEq] at h
      rw [← h.2.1]
      exact fun hmem => (ListSearch.find_singleton_eq_some hfind).2 (c_string_subset _ _ hmem)

/-- An assignment without NUL sets a name exactly when it has the form of an entry of it. -/
theorem assignment_of_eq_some_iff {assignment name value : Bytes} (hzero : 0 ∉ assignment)
    (hname : name ≠ []) (hequals : equals ∉ name) :
    assignmentOf assignment = some (name, value) ↔
      Environ.valueOf equals name assignment = some value := by
  rw [Environ.value_of_eq_some_iff]
  unfold assignmentOf
  constructor
  · intro h
    cases hfind : ListSearch.find [equals] assignment with
    | none => simp [hfind] at h
    | some eq =>
        obtain ⟨hcut, -⟩ := ListSearch.find_singleton_eq_some hfind
        have htake : cString (assignment.take eq) = assignment.take eq :=
          c_string_of_not_mem fun hmem => hzero (List.mem_of_mem_take hmem)
        have hdrop : cString (assignment.drop (eq + 1)) = assignment.drop (eq + 1) :=
          c_string_of_not_mem fun hmem => hzero (List.mem_of_mem_drop hmem)
        simp only [hfind, Option.ite_none_left_eq_some, Option.some.injEq, Prod.mk.injEq, htake,
          hdrop] at h
        rw [← h.2.1, ← h.2.2]
        exact hcut
  · rintro rfl
    have hfind : ListSearch.find [equals] (name ++ equals :: value) = some name.length :=
      ListSearch.find_append_of_not_mem [] value hequals
    have htake : cString name = name := c_string_of_not_mem fun hmem => hzero (by simp [hmem])
    have hvalue : cString value = value := c_string_of_not_mem fun hmem => hzero (by simp [hmem])
    have hdrop : (name ++ equals :: value).drop (name.length + 1) = value := by
      rw [List.append_cons, List.drop_left' (by simp)]
    simp [hfind, htake, hvalue, hname, hdrop]

/-- Under a name the program finds what the last assignment to it says, and without any what it
inherits. -/
theorem getenv_program {environ : List Bytes} {spec : ProcessSpec}
    (hzero : ∀ assignment ∈ spec.environment, 0 ∉ assignment) {name : Bytes} (hname : name ≠ [])
    (hequals : equals ∉ name) :
    getenv (programOf environ spec).environ name =
      ((spec.environment.filterMap (Environ.valueOf equals name)).getLast?).or
        (getenv environ name) := by
  have hnames : ∀ assignment ∈ spec.environment.filterMap assignmentOf, equals ∉ assignment.1 := by
    intro assignment hmem
    obtain ⟨text, -, htext⟩ := List.mem_filterMap.mp hmem
    exact not_mem_of_assignment_of htext
  have hvalues : ((spec.environment.filterMap assignmentOf).filter (·.1 = name)).map (·.2) =
      spec.environment.filterMap (Environ.valueOf equals name) := by
    rw [List.filter_filterMap, List.map_filterMap]
    refine List.filterMap_congr fun assignment hmem => Option.ext fun value => ?_
    rw [← assignment_of_eq_some_iff (hzero assignment hmem) hname hequals]
    cases assignmentOf assignment with
    | none => simp
    | some held =>
        obtain ⟨found, text⟩ := held
        by_cases hfound : found = name <;> simp [Option.filter, hfound]
  rw [getenv, environ_program_of, Environ.get_assign hequals hnames, ← List.getLast?_map, hvalues]
  rfl

end Process

end RuntimeAnalyzer
